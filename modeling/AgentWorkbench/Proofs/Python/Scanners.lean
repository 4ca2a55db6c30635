import AgentWorkbench.Python.Lexer
import AgentWorkbench.Proofs.Text.Search
import Mathlib.Tactic.SplitIfs

/-!
What the scanners of the lexer look at. A scanner of words, numbers and operators takes no line
break and looks at nothing behind one, so it takes the same of a text whatever follows the text's
first line.
-/
namespace AgentWorkbench.Text

/-- The first line of the text goes on into no other text: a break ends it, in the text itself or
right behind it. -/
def Halts (cs more : List Char) : Prop := '\n' ∈ cs ∨ LineTail more

variable {cs more : List Char} {c : Char} {p : Char → Bool}

theorem LineBoundary.halts (h : LineBoundary cs more) (ne : cs ≠ []) : Halts cs more := by
  refine h.imp_left fun whole => ?_
  have last := List.getLast?_eq_some_getLast ne
  exact whole _ last ▸ List.getLast_mem ne

theorem LineBoundary.tail (h : LineBoundary (c :: cs) more) : LineBoundary cs more :=
  h.imp_left (·.of_isSuffix (List.suffix_cons c cs))

theorem Halts.tail (h : Halts (c :: cs) more) (ne : c ≠ '\n') : Halts cs more :=
  h.imp_left fun mem => (List.mem_cons.mp mem).resolve_left ne.symm

theorem Halts.drop (h : Halts cs more) {n : Nat} (clean : '\n' ∉ cs.take n) :
    Halts (cs.drop n) more := by
  refine h.imp_left fun mem => ?_
  rw [← List.take_append_drop n cs, List.mem_append] at mem
  exact mem.resolve_left clean

theorem Halts.takeWhile (h : Halts cs more) (stop : p '\n' = false) :
    (cs ++ more).takeWhile p = cs.takeWhile p := by
  induction cs with
  | nil =>
    cases more with
    | nil => rfl
    | cons c more =>
      have tail : LineTail (c :: more) := h.resolve_left List.not_mem_nil
      obtain rfl := tail c rfl
      exact List.takeWhile_cons_of_neg (by simp [stop])
  | cons c cs ih =>
    rw [List.cons_append, List.takeWhile_cons, List.takeWhile_cons]
    split
    · next keep =>
      have ne : c ≠ '\n' := by
        rintro rfl
        exact Bool.false_ne_true (stop.symm.trans keep)
      rw [ih (h.tail ne)]
    · rfl

theorem Halts.any_head? (h : Halts cs more) (stop : p '\n' = false) :
    (cs ++ more).head?.any p = cs.head?.any p := by
  cases cs with
  | nil =>
    cases more with
    | nil => rfl
    | cons c more =>
      have tail : LineTail (c :: more) := h.resolve_left List.not_mem_nil
      obtain rfl := tail c rfl
      simp [stop]
  | cons c cs => rfl

/-- A pattern without a break is not at the front of the longer text alone. -/
theorem Halts.isPrefixOf {pat : List Char} (h : Halts cs more) (unbroken : '\n' ∉ pat) :
    pat.isPrefixOf (cs ++ more) = pat.isPrefixOf cs := by
  induction pat generalizing cs with
  | nil => simp
  | cons q pat ih =>
    obtain ⟨hq, hp⟩ := List.ne_and_not_mem_of_not_mem_cons unbroken
    cases cs with
    | nil =>
      cases more with
      | nil => rfl
      | cons c more =>
        have tail : LineTail (c :: more) := h.resolve_left List.not_mem_nil
        obtain rfl := tail c rfl
        simp [List.isPrefixOf, Ne.symm hq]
    | cons c cs =>
      by_cases same : q = c
      · subst same
        simp [List.isPrefixOf, ih (h.tail (Ne.symm hq)) hp]
      · have differ : (q == c) = false := by simpa using same
        simp [List.isPrefixOf, differ]

end AgentWorkbench.Text

namespace AgentWorkbench.Python.Lexer

open Text

variable {cs more : List Char} {c : Char} {p : Char → Bool}

/-- A scanner that takes a part of a text's first line and looks at no more than that line. -/
structure OfLine (f : List Char → Nat) : Prop where
  append : ∀ {cs more : List Char}, Halts cs more → f (cs ++ more) = f cs
  le : ∀ cs : List Char, f cs ≤ cs.length
  clean : ∀ cs : List Char, '\n' ∉ cs.take (f cs)

namespace OfLine

variable {f g : List Char → Nat}

theorem drop_append (hf : OfLine f) (h : Halts cs more) :
    (cs ++ more).drop (f (cs ++ more)) = cs.drop (f cs) ++ more := by
  rw [hf.append h, List.drop_append_of_le_length (hf.le cs)]

theorem inTurn (hf : OfLine f) (hg : OfLine g) : OfLine (inTurn f g) where
  append h := by
    rw [Lexer.inTurn, hf.drop_append h, hf.append h, hg.append (h.drop (hf.clean _))]
    rfl
  le cs := by
    have := hf.le cs
    have := hg.le (cs.drop (f cs))
    rw [List.length_drop] at this
    rw [Lexer.inTurn]
    omega
  clean cs := by
    rw [Lexer.inTurn, List.take_add, List.mem_append, not_or]
    exact ⟨hf.clean cs, hg.clean _⟩

theorem nothing : OfLine fun _ => 0 where
  append _ := rfl
  le cs := Nat.zero_le _
  clean cs := by simp

theorem takeWhile (stop : p '\n' = false) : OfLine fun cs => (cs.takeWhile p).length where
  append h := by rw [h.takeWhile stop]
  le cs := (List.takeWhile_prefix p).length_le
  clean cs := by
    rw [← List.prefix_iff_eq_take.mp (List.takeWhile_prefix p)]
    intro mem
    exact Bool.false_ne_true (stop.symm.trans (List.mem_takeWhile_imp mem))

/-- A scanner that takes a first character under a condition, and then what another one takes. -/
theorem guarded {b : Char → List Char → Bool} (hf : OfLine f) (nil : g [] = 0)
    (cons : ∀ c cs, g (c :: cs) = if b c cs then 1 + f cs else 0) (solid : ∀ cs, b '\n' cs = false)
    (ofLine : ∀ {c cs more}, Halts cs more → b c (cs ++ more) = b c cs) : OfLine g where
  append {cs more} h := by
    cases cs with
    | nil =>
      cases more with
      | nil => rfl
      | cons c more =>
        have tail : LineTail (c :: more) := h.resolve_left List.not_mem_nil
        obtain rfl := tail c rfl
        rw [List.nil_append, cons, solid, nil, if_neg Bool.false_ne_true]
    | cons c cs =>
      rw [List.cons_append, cons, cons]
      by_cases ne : c = '\n'
      · simp [ne, solid]
      · rw [ofLine (h.tail ne), hf.append (h.tail ne)]
  le cs := by
    cases cs with
    | nil => exact Nat.le_of_eq nil
    | cons c cs =>
      rw [cons, List.length_cons]
      have := hf.le cs
      split <;> omega
  clean cs := by
    cases cs with
    | nil => simp
    | cons c cs =>
      rw [cons]
      split
      · next taken =>
        rw [Nat.add_comm, List.take_succ_cons, List.mem_cons, not_or]
        refine ⟨?_, hf.clean cs⟩
        rintro rfl
        exact Bool.false_ne_true ((solid cs).symm.trans taken)
      · simp

end OfLine

theorem ofLine_digitsLength : OfLine digitsLength :=
  .takeWhile (by decide)

theorem ofLine_signLength : OfLine signLength := by
  refine OfLine.nothing.guarded (b := fun c _ => c = '+' || c = '-') rfl ?_ (fun _ => by decide)
    fun _ => rfl
  intro c cs
  rw [signLength.eq_def]
  split
  · next h => cases h; rfl
  · next h => cases h; rfl
  · next plus minus =>
    have other : c ≠ '+' ∧ c ≠ '-' := ⟨fun h => plus cs (h ▸ rfl), fun h => minus cs (h ▸ rfl)⟩
    simp [other]

theorem hasExponent_append (h : Halts cs more) : hasExponent (cs ++ more) = hasExponent cs := by
  rw [hasExponent, ofLine_signLength.drop_append h]
  exact (h.drop (ofLine_signLength.clean cs)).any_head? (by decide)

theorem ofLine_exponentLength : OfLine exponentLength := by
  refine (ofLine_signLength.inTurn ofLine_digitsLength).guarded rfl (fun _ _ => rfl) ?_ ?_
  · exact fun cs => by simp
  · intro c cs more h
    rw [hasExponent_append h]

theorem ofLine_fractionLength : OfLine fractionLength := by
  refine ofLine_digitsLength.guarded (b := fun c _ => c = '.') rfl ?_ (fun _ => by decide)
    fun _ => rfl
  intro c cs
  rw [fractionLength.eq_def]
  split
  · next h => cases h; rfl
  · next other => simp [show c ≠ '.' from fun h => other cs (h ▸ rfl)]

theorem ofLine_imaginaryLength : OfLine imaginaryLength := by
  refine OfLine.nothing.guarded (b := fun c _ => c = 'j' || c = 'J') rfl ?_ (fun _ => by decide)
    fun _ => rfl
  intro c cs
  rw [imaginaryLength.eq_def]
  split
  · next h => cases h; rfl
  · next h => cases h; rfl
  · next lower upper =>
    have other : c ≠ 'j' ∧ c ≠ 'J' := ⟨fun h => lower cs (h ▸ rfl), fun h => upper cs (h ▸ rfl)⟩
    simp [other]

theorem baseDigit?_break {letter : Char} (h : baseDigit? letter = some p) :
    letter ≠ '\n' ∧ isDigitOrMark p '\n' = false := by
  rw [baseDigit?] at h
  split_ifs at h with hex octal binary
  · cases h
    exact ⟨by rintro rfl; revert hex; decide, by decide⟩
  · cases h
    exact ⟨by rintro rfl; revert octal; decide, by decide⟩
  · cases h
    exact ⟨by rintro rfl; revert binary; decide, by decide⟩

/-- A number with a prefix that names its base: the prefix, and digits behind it. -/
theorem basedLength_cases (cs : List Char) : basedLength cs = 0 ∨
    ∃ letter rest p, cs = '0' :: letter :: rest ∧ baseDigit? letter = some p ∧
      basedLength cs = (rest.takeWhile (isDigitOrMark p)).length := by
  rw [basedLength.eq_def]
  split
  · next letter rest =>
    cases h : baseDigit? letter with
    | none => exact .inl rfl
    | some p => exact .inr ⟨letter, rest, p, rfl, h, rfl⟩
  · exact .inl rfl

theorem basedLength_other (h : c ≠ '0') : basedLength (c :: cs) = 0 := by
  rw [basedLength.eq_def]
  split
  · next same => exact absurd (List.cons_eq_cons.mp same).1 h
  · rfl

theorem basedLength_append (h : Halts cs more) : basedLength (cs ++ more) = basedLength cs := by
  cases cs with
  | nil =>
    cases more with
    | nil => rfl
    | cons d more =>
      obtain rfl := (h.resolve_left List.not_mem_nil) d rfl
      rfl
  | cons c cs =>
    by_cases zero : c = '0'
    · subst zero
      have inner := h.tail (by decide)
      cases cs with
      | nil =>
        cases more with
        | nil => rfl
        | cons d more =>
          obtain rfl := (inner.resolve_left List.not_mem_nil) d rfl
          rfl
      | cons letter rest =>
        cases hb : baseDigit? letter with
        | none => simp [basedLength, hb]
        | some p =>
          obtain ⟨ne, stop⟩ := baseDigit?_break hb
          simp [basedLength, hb, (inner.tail ne).takeWhile stop]
    · rw [List.cons_append, basedLength_other zero, basedLength_other zero]

theorem ofLine_numberLength : OfLine numberLength := by
  have plain := ofLine_digitsLength.inTurn
    (ofLine_fractionLength.inTurn (ofLine_exponentLength.inTurn ofLine_imaginaryLength))
  refine ⟨fun h => ?_, fun cs => ?_, fun cs => ?_⟩
  · rw [numberLength, numberLength, basedLength_append h, plain.append h]
  · rw [numberLength]
    split
    · next based =>
      obtain zero | ⟨letter, rest, p, rfl, -, length⟩ := basedLength_cases cs
      · exact absurd zero based
      · have inside : (rest.takeWhile (isDigitOrMark p)).length ≤ rest.length :=
          (List.takeWhile_prefix _).length_le
        simp only [List.length_cons]
        omega
    · exact plain.le cs
  · rw [numberLength]
    split
    · next based =>
      obtain zero | ⟨letter, rest, p, rfl, digit, length⟩ := basedLength_cases cs
      · exact absurd zero based
      · obtain ⟨ne, stop⟩ := baseDigit?_break digit
        rw [length]
        simp [List.take_succ_cons, ne.symm, (OfLine.takeWhile stop).clean rest]
    · exact plain.clean cs

theorem startsNumber_append (h : Halts (c :: cs) more) :
    startsNumber (c :: (cs ++ more)) = startsNumber (c :: cs) := by
  by_cases dot : c = '.'
  · subst dot
    cases cs with
    | nil =>
      cases more with
      | nil => rfl
      | cons d more =>
        obtain rfl := ((h.tail (by decide)).resolve_left List.not_mem_nil) d rfl
        rfl
    | cons d cs => rfl
  · have plain : ∀ cs, startsNumber (c :: cs) = c.isDigit := by
      intro cs
      rw [startsNumber.eq_def]
      split
      · next same => exact absurd (List.cons_eq_cons.mp same).1 dot
      · next same => rw [(List.cons_eq_cons.mp same).1]
      · contradiction
    rw [plain, plain]

/-- A number that starts takes characters. -/
theorem numberLength_pos (h : startsNumber cs = true) : 0 < numberLength cs := by
  have digit : ∀ (c : Char) (cs : List Char), c.isDigit = true → 0 < digitsLength (c :: cs) := by
    intro c cs h
    rw [digitsLength, List.takeWhile_cons_of_pos (by simp [isDigitOrMark, h])]
    exact Nat.zero_lt_succ _
  rw [numberLength]
  split
  · omega
  · rw [inTurn, inTurn]
    rw [startsNumber.eq_def] at h
    split at h
    · next c rest _ =>
      have point : digitsLength ('.' :: c :: rest) = 0 := rfl
      rw [point, List.drop_zero, fractionLength]
      omega
    · next c rest _ _ =>
      have := digit c rest h
      omega
    · contradiction

theorem unbroken_operators : ∀ op ∈ operators, '\n' ∉ op.toList := by
  decide +kernel

theorem operator?_append (h : Halts cs more) : operator? (cs ++ more) = operator? cs := by
  have same : ∀ op ∈ operators, op.toList.isPrefixOf (cs ++ more) = op.toList.isPrefixOf cs :=
    fun op known => h.isPrefixOf (unbroken_operators op known)
  rw [operator?, operator?]
  revert same
  generalize operators = ops
  intro same
  induction ops with
  | nil => rfl
  | cons op ops ih =>
    rw [List.find?_cons, List.find?_cons, same op List.mem_cons_self,
      ih fun other known => same other (List.mem_cons_of_mem op known)]

/-- The operator is the front of the text. -/
theorem operator?_eq_some {op : String} (h : operator? cs = some op) :
    op ∈ operators ∧ ∃ rest, cs = op.toList ++ rest := by
  rw [operator?] at h
  have front : op.toList.isPrefixOf cs = true :=
    List.find?_some (p := fun op : String => op.toList.isPrefixOf cs) h
  obtain ⟨rest, cut⟩ := List.isPrefixOf_iff_prefix.mp front
  exact ⟨List.mem_of_find?_eq_some h, rest, cut.symm⟩

theorem operators_ne_empty : ∀ op ∈ operators, op.toList ≠ [] := by
  decide +kernel

theorem quote?_cons : quote? (c :: cs) =
    if StringPrefix.isQuote c then
      if [c, c].isPrefixOf cs then some ([c, c, c], cs.drop 2) else some ([c], cs)
    else none := by
  rw [quote?.eq_def]
  dsimp only
  split
  · match cs with
    | [] => rfl
    | [d] => simp [List.isPrefixOf]
    | d :: e :: rest =>
      by_cases hd : d = c
      · by_cases he : e = c
        · simp [List.isPrefixOf, hd, he]
        · simp [List.isPrefixOf, he, Ne.symm he]
      · simp [List.isPrefixOf, hd, Ne.symm hd]
  · rfl

theorem isQuote_ne_break (h : StringPrefix.isQuote c = true) : c ≠ '\n' := by
  rintro rfl
  exact absurd h (by decide)

/-- An opening quote: the text is the quote, which has no break, and the rest. -/
theorem quote?_eq_some {quote rest : List Char} (h : quote? cs = some (quote, rest)) :
    cs = quote ++ rest ∧ '\n' ∉ quote ∧ quote ≠ [] := by
  cases cs with
  | nil => contradiction
  | cons c cs =>
    rw [quote?_cons] at h
    split_ifs at h with opens tripled
    · cases h
      have ne := (isQuote_ne_break opens).symm
      obtain ⟨rest, rfl⟩ := List.isPrefixOf_iff_prefix.mp tripled
      exact ⟨by simp, by simp [ne], by simp⟩
    · cases h
      exact ⟨rfl, by simp [(isQuote_ne_break opens).symm], by simp⟩

theorem quote?_append (h : Halts cs more) :
    quote? (cs ++ more) = (quote? cs).map fun (quote, rest) => (quote, rest ++ more) := by
  cases cs with
  | nil =>
    cases more with
    | nil => rfl
    | cons d more =>
      obtain rfl := (h.resolve_left List.not_mem_nil) d rfl
      rfl
  | cons c cs =>
    rw [List.cons_append, quote?_cons, quote?_cons]
    split_ifs with opens longer tripled tripled
    · have enough : 2 ≤ cs.length := (List.isPrefixOf_iff_prefix.mp tripled).length_le
      simp [List.drop_append_of_le_length enough]
    · have ne := isQuote_ne_break opens
      rw [(h.tail ne).isPrefixOf (by simp [ne.symm])] at longer
      contradiction
    · have ne := isQuote_ne_break opens
      rw [(h.tail ne).isPrefixOf (by simp [ne.symm])] at longer
      contradiction
    · rfl
    · rfl

theorem ofLine_prefixLetters : OfLine fun cs => (cs.takeWhile isPrefixLetter).length :=
  .takeWhile (by decide)

theorem stringStart?_eq_some {letters quote rest : List Char}
    (h : stringStart? cs = some (letters, quote, rest)) :
    cs = letters ++ (quote ++ rest) ∧ '\n' ∉ quote ∧ quote ≠ [] := by
  simp only [stringStart?, Option.map_eq_some_iff, Prod.exists, Prod.mk.injEq] at h
  obtain ⟨quote', rest', opened, rfl, rfl, rfl⟩ := h
  obtain ⟨cut, unbroken, ne⟩ := quote?_eq_some opened
  refine ⟨?_, unbroken, ne⟩
  rw [← cut]
  exact (List.prefix_iff_eq_append.mp (List.takeWhile_prefix isPrefixLetter)).symm

theorem stringStart?_append (h : Halts cs more) : stringStart? (cs ++ more) =
    (stringStart? cs).map fun (letters, quote, rest) => (letters, quote, rest ++ more) := by
  have inner := h.drop (ofLine_prefixLetters.clean cs)
  have cut := ofLine_prefixLetters.drop_append h
  rw [stringStart?, stringStart?]
  dsimp only
  rw [cut, quote?_append inner, h.takeWhile (by decide), Option.map_map, Option.map_map]
  rfl

end AgentWorkbench.Python.Lexer
