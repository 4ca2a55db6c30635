import AgentWorkbench.Proofs.Python.Formatted
import AgentWorkbench.Proofs.Python.Names
import Mathlib.Data.List.Chain

/-!
Words, integers and marks inside brackets. Each is read as one token, whatever blanks and line
breaks stand between them, as long as none goes on into the next one.
-/
namespace AgentWorkbench.Python

open Text Lexer

/-! Lexemes. -/

/-- An integer as it is written: in decimal digits, or in those of a base that a letter names. -/
inductive Numeral where
  | decimal (first : Char) (more : List Char) (starts : first.isDigit = true)
      (goesOn : ∀ c ∈ more, isDigitOrMark Char.isDigit c = true)
  | based (letter : Char) (isDigit : Char → Bool) (known : baseDigit? letter = some isDigit)
      (digits : List Char) (ne : digits ≠ [])
      (goesOn : ∀ c ∈ digits, isDigitOrMark isDigit c = true)

def Numeral.chars : Numeral → List Char
  | decimal first more _ _ => first :: more
  | based letter _ _ digits _ _ => '0' :: letter :: digits

inductive Mark where
  | comma
  | colon
  | equals
  | star
  | stars
  | slash
  | plus
  | minus
  deriving DecidableEq

namespace Mark

def text : Mark → String
  | comma => ","
  | colon => ":"
  | equals => "="
  | star => "*"
  | stars => "**"
  | slash => "/"
  | plus => "+"
  | minus => "-"

/-- The characters with which the mark goes on into another operator. -/
def extending : Mark → List Char
  | comma => []
  | colon | equals | stars | plus => ['=']
  | star => ['*', '=']
  | slash => ['/', '=']
  | minus => ['=', '>']

theorem extending_subset (mark : Mark) : mark.extending ⊆ ['=', '*', '/', '>'] := by
  cases mark <;> decide

end Mark

inductive Lexeme where
  | word (word : Identifier)
  | number (numeral : Numeral)
  | mark (mark : Mark)

namespace Lexeme

def chars : Lexeme → List Char
  | .word w => w.chars
  | .number n => n.chars
  | .mark m => m.text.toList

def kind : Lexeme → TokenKind
  | .word w => .name w.name
  | .number _ => .number
  | .mark m => .op m.text

/-- The characters that may be right behind a word or an integer. -/
def boundary : List Char := [' ', '\t', '\n', ',', ')', ':', '=']

/-- The lexeme ends before this character. -/
def Ends : Lexeme → Char → Prop
  | .mark m, c => c ∉ m.extending
  | _, c => c ∈ boundary

/-- The second lexeme may be right behind the first one. -/
def Precedes : Lexeme → Lexeme → Prop
  | .mark .comma, .mark _ => True
  | .mark .equals, .mark m => m = .plus ∨ m = .minus
  | .mark _, .mark m => m = .comma
  | .mark _, _ => True
  | _, .mark m => m = .comma ∨ m = .colon ∨ m = .equals
  | _, _ => False

end Lexeme

namespace Lexer

/-! Integers. -/

theorem baseDigit?_of_digitOrMark {c : Char} (h : isDigitOrMark Char.isDigit c = true) :
    baseDigit? c = none := by
  have other (letter : Char) (no : isDigitOrMark Char.isDigit letter = false) : c ≠ letter := by
    rintro rfl
    exact Bool.false_ne_true (no.symm.trans h)
  rw [baseDigit?, if_neg, if_neg, if_neg]
  · exact not_or.mpr ⟨other 'b' (by decide), other 'B' (by decide)⟩
  · exact not_or.mpr ⟨other 'o' (by decide), other 'O' (by decide)⟩
  · exact not_or.mpr ⟨other 'x' (by decide), other 'X' (by decide)⟩

theorem basedLength_of_none {letter : Char} (h : baseDigit? letter = none) (c : Char)
    (rest : List Char) : basedLength (c :: letter :: rest) = 0 := by
  by_cases zero : c = '0'
  · rw [zero, basedLength, h]
  · rw [basedLength.eq_def]
    split
    · next same => exact absurd (List.cons.inj same).1 zero
    · rfl

variable {c : Char}

theorem baseDigit?_boundary (h : c ∈ Lexeme.boundary) : baseDigit? c = none :=
  List.all_iff_forall_prop.mp (by decide : Lexeme.boundary.all (baseDigit? · = none)) c h

theorem endsWord_boundary (h : c ∈ Lexeme.boundary) : EndsWord c := by
  have ends : ∀ c ∈ Lexeme.boundary, isIdentRest c = false ∧ isPrefixLetter c = false ∧
      StringPrefix.isQuote c = false := List.all_iff_forall_prop.mp (by decide)
  obtain ⟨word, letter, quote⟩ := ends c h
  exact ⟨word, letter, quote⟩

theorem takeWhile_digits {p : Char → Bool} {digits : List Char} (all : ∀ c ∈ digits, p c = true)
    (stop : p c = false) (rest : List Char) : (digits ++ c :: rest).takeWhile p = digits := by
  rw [List.takeWhile_append_of_pos all, List.takeWhile_cons_of_neg (by simp [stop]),
    List.append_nil]

/-- Nothing of a fraction, an exponent or an imaginary part is behind an integer. -/
theorem no_fraction (h : c ∈ Lexeme.boundary) (rest : List Char) :
    inTurn fractionLength (inTurn exponentLength imaginaryLength) (c :: rest) = 0 := by
  simp only [Lexeme.boundary, List.mem_cons, List.not_mem_nil, or_false] at h
  obtain rfl | rfl | rfl | rfl | rfl | rfl | rfl := h <;> rfl

theorem isDigitOrMark_boundary (h : c ∈ Lexeme.boundary) :
    isDigitOrMark Char.isDigit c = false ∧
      ∀ letter p, baseDigit? letter = some p → isDigitOrMark p c = false := by
  have plain : ∀ c ∈ Lexeme.boundary, isDigitOrMark Char.isDigit c = false ∧
      isDigitOrMark isHexDigit c = false ∧ isDigitOrMark isOctal c = false ∧
      isDigitOrMark (fun c => c = '0' || c = '1') c = false :=
    List.all_iff_forall_prop.mp (by decide)
  obtain ⟨decimal, hex, octal, binary⟩ := plain c h
  refine ⟨decimal, fun letter p known => ?_⟩
  rw [baseDigit?] at known
  split_ifs at known
  · exact Option.some.inj known ▸ hex
  · exact Option.some.inj known ▸ octal
  · exact Option.some.inj known ▸ binary

theorem numberLength_numeral (numeral : Numeral) (h : c ∈ Lexeme.boundary) (rest : List Char) :
    numberLength (numeral.chars ++ c :: rest) = numeral.chars.length := by
  cases numeral with
  | decimal first more starts goesOn =>
      have unbased : basedLength (first :: more ++ c :: rest) = 0 := by
        cases more with
        | nil => exact basedLength_of_none (baseDigit?_boundary h) first rest
        | cons d more =>
            exact basedLength_of_none (baseDigit?_of_digitOrMark (goesOn d List.mem_cons_self)) _ _
      have all : ∀ d ∈ first :: more, isDigitOrMark Char.isDigit d = true :=
        List.forall_mem_cons.mpr ⟨by simp [isDigitOrMark, starts], goesOn⟩
      have digits : digitsLength (first :: more ++ c :: rest) = (first :: more).length :=
        congrArg List.length (takeWhile_digits all (isDigitOrMark_boundary h).1 rest)
      have whole : numberLength (first :: more ++ c :: rest) = (first :: more).length := by
        rw [numberLength, if_neg (not_not.mpr unbased), inTurn, digits, List.drop_left,
          no_fraction h, Nat.add_zero]
      exact whole
  | based letter isDigit known digits ne goesOn =>
      have length : basedLength ('0' :: letter :: (digits ++ c :: rest)) = digits.length := by
        rw [basedLength, known]
        exact congrArg List.length
          (takeWhile_digits goesOn ((isDigitOrMark_boundary h).2 letter isDigit known) rest)
      have some_digit : digits.length ≠ 0 := mt List.length_eq_zero_iff.mp ne
      have whole : numberLength ('0' :: letter :: (digits ++ c :: rest)) = digits.length + 2 := by
        rw [numberLength, length, if_pos some_digit]
      exact whole

theorem startsDigit (numeral : Numeral) :
    ∃ first more, numeral.chars = first :: more ∧ first.isDigit = true := by
  cases numeral with
  | decimal first more starts goesOn => exact ⟨first, more, rfl, starts⟩
  | based letter isDigit known digits ne goesOn => exact ⟨'0', letter :: digits, rfl, by decide⟩

/-- The decimal digits, one by one. -/
theorem mem_of_isDigit (h : c.isDigit = true) :
    c ∈ ['0', '1', '2', '3', '4', '5', '6', '7', '8', '9'] := by
  obtain ⟨low, high⟩ := Char.isDigit_iff_toNat.mp h
  have all : ∀ n < 58, 48 ≤ n →
      Char.ofNat n ∈ ['0', '1', '2', '3', '4', '5', '6', '7', '8', '9'] := by decide
  exact Char.ofNat_toNat c ▸ all c.toNat (Nat.lt_succ_of_le high) low

/-- A digit starts nothing but a number. -/
structure StartsDigit (c : Char) : Prop where
  token : c ∉ passedOver
  unquoted : isPrefixLetter c = false ∧ StringPrefix.isQuote c = false
  word : isIdentStart c = false

theorem startsDigit_of_isDigit (h : c.isDigit = true) : StartsDigit c := by
  have all : ∀ c ∈ ['0', '1', '2', '3', '4', '5', '6', '7', '8', '9'], c ∉ passedOver ∧
      (isPrefixLetter c = false ∧ StringPrefix.isQuote c = false) ∧ isIdentStart c = false :=
    List.all_iff_forall_prop.mp (by decide)
  obtain ⟨token, unquoted, word⟩ := all c (mem_of_isDigit h)
  exact ⟨token, unquoted, word⟩

variable (s : LexState) (pos : Nat)

theorem token?_number (numeral : Numeral) (h : c ∈ Lexeme.boundary) (rest : List Char) :
    token? s pos (numeral.chars ++ c :: rest) =
      some (single s pos .number numeral.chars.length (c :: rest)) := by
  have length := numberLength_numeral numeral h rest
  obtain ⟨first, more, chars, digit⟩ := startsDigit numeral
  obtain ⟨-, ⟨letter, quote⟩, word⟩ := startsDigit_of_isDigit digit
  rw [chars, List.cons_append] at length ⊢
  have unquoted : stringStart? (first :: (more ++ c :: rest)) = none := by
    rw [stringStart?, List.takeWhile_cons_of_neg (by simp [letter])]
    simp [quote?_cons, quote]
  have number : startsNumber (first :: (more ++ c :: rest)) = true := by
    rw [startsNumber.eq_2]
    · exact digit
    · rintro _ _ rfl
      exact absurd digit (by decide)
  rw [token?_other unquoted, if_neg (by simp [word]), if_pos number, length, List.length_cons,
    List.drop_succ_cons, List.drop_left]

/-! Marks. -/

theorem operator?_mark {mark : Mark} (h : c ∉ mark.extending) (rest : List Char) :
    operator? (mark.text.toList ++ c :: rest) = some mark.text := by
  have other : ∀ d ∈ mark.extending, d ≠ c := fun d mem same => h (same ▸ mem)
  cases mark <;>
    simp_all [operator?, operators, Mark.text, Mark.extending, List.isPrefixOf]

theorem startsMark (mark : Mark) :
    ∃ first more, mark.text.toList = first :: more ∧ first ∉ passedOver := by
  cases mark <;> exact ⟨_, _, rfl, by decide⟩

section Layout

variable (blocks : List Nat) (column : Nat) (close : Char) (outer : List LexContext)
  (last : List TokenKind)

theorem token?_mark {mark : Mark} (h : c ∉ mark.extending) (rest : List Char) :
    let s := within blocks column (.bracket close :: outer) last
    token? s pos (mark.text.toList ++ c :: rest) =
      some (single s pos (.op mark.text) mark.text.toList.length (c :: rest)) := by
  intro s
  have bare : token? s pos (mark.text.toList ++ c :: rest) =
      (operator? (mark.text.toList ++ c :: rest)).bind fun op =>
        delimiterToken? s pos ((mark.text.toList ++ c :: rest).drop op.length) op := by
    cases mark <;> rfl
  rw [bare, operator?_mark h, Option.bind_some]
  cases mark <;> rfl

/-- A lexeme inside brackets is one step. -/
theorem steps_lexeme (lexeme : Lexeme) (ends : lexeme.Ends c) (rest : List Char) :
    let s := within blocks column (.bracket close :: outer) last
    Steps s (lexeme.chars ++ c :: rest) [lexeme.kind] (remember s lexeme.kind) (c :: rest) := by
  intro s
  cases lexeme with
  | word word => exact steps_word (fun _ _ => rfl) (fun _ => rfl) word (endsWord_boundary ends) rest
  | number numeral =>
      obtain ⟨first, more, chars, digit⟩ := startsDigit numeral
      have read (pos : Nat) := token?_number s pos numeral ends rest
      rw [chars] at read
      rw [Lexeme.chars, chars]
      exact steps_token (fun _ _ => rfl) (fun _ => rfl) (startsDigit_of_isDigit digit).token read
  | mark mark =>
      obtain ⟨first, more, text, token⟩ := startsMark mark
      have read (pos : Nat) := token?_mark pos blocks column close outer last ends rest
      rw [text] at read
      rw [Lexeme.chars, text]
      exact steps_token (fun _ _ => rfl) (fun _ => rfl) token read

end Layout

end Lexer

/-! Lexemes one after the other. -/

namespace Lexeme

/-- The lexeme ends before this text. -/
def EndsAt (lexeme : Lexeme) (cs : List Char) : Prop :=
  ∃ c rest, cs = c :: rest ∧ lexeme.Ends c

variable (lexeme : Lexeme) {next : Lexeme} {cs : List Char}

theorem ends_blank : ∀ c ∈ [' ', '\t', '\n'], lexeme.Ends c := by
  have blank : ∀ c ∈ [' ', '\t', '\n'], c ∈ boundary ∧ c ∉ ['=', '*', '/', '>'] :=
    List.all_iff_forall_prop.mp (by decide)
  cases lexeme with
  | word | number => exact fun c mem => (blank c mem).1
  | mark mark => exact fun c mem extends_mark => (blank c mem).2 (mark.extending_subset extends_mark)

theorem ends_close : lexeme.Ends ')' := by
  cases lexeme with
  | word | number => exact (by decide : ')' ∈ boundary)
  | mark mark => cases mark <;> change ')' ∉ Mark.extending _ <;> decide

variable {lexeme}

/-- No mark goes on with what starts a word or a number. -/
theorem not_mem_extending (mark : Mark) {c : Char}
    (h : isIdentStart c = true ∨ c.isDigit = true) : c ∉ mark.extending := by
  have other : ∀ c ∈ ['=', '*', '/', '>'], isIdentStart c = false ∧ c.isDigit = false :=
    List.all_iff_forall_prop.mp (by decide)
  intro mem
  obtain ⟨word, digit⟩ := other c (mark.extending_subset mem)
  simp [word, digit] at h

theorem Precedes.ends (h : Precedes lexeme next) (rest : List Char) :
    lexeme.EndsAt (next.chars ++ rest) := by
  cases next with
  | word word =>
      cases lexeme with
      | mark mark =>
          exact ⟨word.first, _, rfl, not_mem_extending mark (.inl word.starts)⟩
      | word => exact h.elim
      | number => exact h.elim
  | number numeral =>
      cases lexeme with
      | mark mark =>
          obtain ⟨first, more, chars, digit⟩ := startsDigit numeral
          exact ⟨first, more ++ rest, congrArg (· ++ rest) chars, not_mem_extending mark (.inr digit)⟩
      | word => exact h.elim
      | number => exact h.elim
  | mark sign =>
      cases lexeme with
      | word => obtain rfl | rfl | rfl := h <;> exact ⟨_, _, rfl, (by decide : _ ∈ boundary)⟩
      | number => obtain rfl | rfl | rfl := h <;> exact ⟨_, _, rfl, (by decide : _ ∈ boundary)⟩
      | mark mark =>
          cases mark with
          | comma => cases sign <;> exact ⟨_, _, rfl, List.not_mem_nil⟩
          | equals => obtain rfl | rfl := h <;> exact ⟨_, _, rfl, (by decide : _ ∉ ['='])⟩
          | _ =>
              obtain rfl := h
              exact ⟨_, _, rfl, (by decide : ',' ∉ Mark.extending _)⟩

theorem EndsAt.behind_gap (h : lexeme.EndsAt cs) (gap : Gap) :
    lexeme.EndsAt (gap.blanks ++ cs) := by
  have blank := gap.blank
  cases blanks : gap.blanks with
  | nil => exact h
  | cons c more =>
      rw [blanks] at blank
      exact ⟨c, more ++ cs, rfl, lexeme.ends_blank c (blank c List.mem_cons_self)⟩

end Lexeme

/-- Lexemes, each behind a gap. -/
def layoutText (layout : List (Gap × Lexeme)) : List Char :=
  layout.flatMap fun x => x.1.blanks ++ x.2.chars

namespace Lexer

variable (blocks : List Nat) (column : Nat) (close : Char) (outer : List LexContext)
  (last : List TokenKind)

/-- Lexemes are read one by one up to a closing parenthesis. -/
theorem passes_layout (layout : List (Gap × Lexeme))
    (chain : (layout.map Prod.snd).IsChain Lexeme.Precedes) (gap : Gap) (rest : List Char) :
    ∃ column' last', Passes (within blocks column (.bracket close :: outer) last)
      (layoutText layout ++ (gap.blanks ++ ')' :: rest)) (layout.map (·.2.kind))
      (within blocks column' (.bracket close :: outer) last') (')' :: rest) := by
  induction layout generalizing column last with
  | nil =>
      obtain ⟨column', passed⟩ := passes_gap blocks close outer gap column last (')' :: rest)
      exact ⟨column', last, passed⟩
  | cons x layout ih =>
      obtain ⟨before, lexeme⟩ := x
      have ends : lexeme.EndsAt (layoutText layout ++ (gap.blanks ++ ')' :: rest)) := by
        cases layout with
        | nil =>
            have here : lexeme.EndsAt (')' :: rest) := ⟨')', rest, rfl, lexeme.ends_close⟩
            exact here.behind_gap gap
        | cons y layout =>
            have next := (List.isChain_cons_cons.mp chain).1.ends
              (layoutText layout ++ (gap.blanks ++ ')' :: rest))
            simpa [layoutText] using next.behind_gap y.1
      obtain ⟨c, more, behind, ends⟩ := ends
      obtain ⟨column₁, passed₁⟩ := passes_gap blocks close outer before column last
        (lexeme.chars ++ c :: more)
      have passed₂ := (steps_lexeme blocks column₁ close outer last lexeme ends more).passes
      obtain ⟨column₃, last₃, passed₃⟩ := ih column₁ (lexeme.kind :: last.take 1) chain.tail
      rw [behind] at passed₃
      refine ⟨column₃, last₃, ?_⟩
      have text : layoutText ((before, lexeme) :: layout) ++ (gap.blanks ++ ')' :: rest) =
          before.blanks ++ (lexeme.chars ++ c :: more) := by
        rw [← behind]
        simp [layoutText]
      rw [text]
      exact passed₁.trans (passed₂.trans passed₃)

end Lexer

end AgentWorkbench.Python
