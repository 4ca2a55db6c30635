import AgentWorkbench.Proofs.Python.Names

/-!
Lines without tokens, and the starts of other lines. Blanks and a comment leave no trace between two
lines, and behind them a line is read as from inside, with the tokens that open it in front.
-/
namespace AgentWorkbench.Python

open Lexer

/-- The blanks that may stand between the tokens of a line. -/
def spaces : List Char := [' ', '\t', '\r', '\x0c']

/-- What may stand in a line beside its tokens: blanks, and a comment behind them. -/
structure BareLine where
  blanks : List Char
  comment : Option (List Char)
  blank : ∀ c ∈ blanks, c ∈ spaces
  legal : ∀ text ∈ comment, ∀ c ∈ text, c ≠ '\n' ∧ c.toNat ≠ 0

namespace BareLine

def remark (line : BareLine) : List Char :=
  match line.comment with
  | some text => '#' :: text
  | none => []

def text (line : BareLine) : List Char := line.blanks ++ line.remark

theorem exists_head (line : BareLine) (rest : List Char) :
    ∃ c more, line.text ++ '\n' :: rest = c :: more ∧ c ∈ '\n' :: '#' :: spaces := by
  have blank := line.blank
  rw [text, remark]
  cases blanks : line.blanks with
  | nil => cases line.comment <;> exact ⟨_, _, rfl, by decide⟩
  | cons c more =>
    rw [blanks] at blank
    refine ⟨c, _, rfl, ?_⟩
    exact List.mem_cons_of_mem _ (List.mem_cons_of_mem _ (blank c List.mem_cons_self))

theorem legal_none : ∀ text ∈ (none : Option (List Char)), ∀ c ∈ text, c ≠ '\n' ∧ c.toNat ≠ 0 :=
  nofun

def empty : BareLine := ⟨[], none, nofun, legal_none⟩

end BareLine

namespace Lexer

variable {s s' : LexState} {c : Char} {cs front rest : List Char} {kinds : List TokenKind}

/-! Passing over. -/

theorem passes_spaces (outside : s.contexts = []) {blanks : List Char}
    (blank : ∀ c ∈ blanks, c ∈ spaces) (rest : List Char) :
    ∃ column, Passes s (blanks ++ rest) [] { s with column } rest := by
  induction blanks generalizing s with
  | nil => exact ⟨s.column, .done⟩
  | cons c blanks ih =>
    obtain ⟨here, later⟩ := List.forall_mem_cons.mp blank
    have first : ∃ column, Steps s (c :: (blanks ++ rest)) [] { s with column } (blanks ++ rest) := by
      obtain ⟨_, _, _, _, _⟩ := s
      obtain rfl := outside
      simp only [spaces, List.mem_cons, List.not_mem_nil, or_false] at here
      obtain rfl | rfl | rfl | rfl := here <;>
        exact ⟨_, Nat.lt_succ_self _, fun pos => ⟨_, rfl, rfl, rfl, rfl⟩⟩
    obtain ⟨column, step⟩ := first
    obtain ⟨column', passed⟩ := ih (s := { s with column }) outside later
    exact ⟨column', step.passes.trans passed⟩

/-- A comment is passed over up to the end of its line. -/
theorem passes_comment (outside : s.contexts = []) {text : List Char}
    (legal : ∀ c ∈ text, c ≠ '\n' ∧ c.toNat ≠ 0) (rest : List Char) :
    Passes s ('#' :: (text ++ '\n' :: rest)) [] s ('\n' :: rest) := by
  have whole : (text ++ '\n' :: rest).takeWhile (· ≠ '\n') = text := by
    have inside : ∀ c ∈ text, decide (c ≠ '\n') = true := fun c mem =>
      decide_eq_true (legal c mem).1
    rw [List.takeWhile_append_of_pos inside, List.takeWhile_cons_of_neg (by decide),
      List.append_nil]
  have clean : text.any (·.toNat = 0) = false := by
    simpa using fun c mem => (legal c mem).2
  have shorter : ('\n' :: rest).length < ('#' :: (text ++ '\n' :: rest)).length := by
    simp only [List.length_append, List.length_cons]
    omega
  refine Steps.passes ⟨shorter, fun pos => ⟨skipped s (text.length + 1) ('\n' :: rest), ?_, rfl,
    rfl, rfl⟩⟩
  rw [step_outside outside]
  simp only [codeStep]
  rw [whole, clean, List.drop_left]
  rfl

/-- What stands in a line beside its tokens is passed over up to the end of the line. -/
theorem passes_bareLine (outside : s.contexts = []) (line : BareLine) (rest : List Char) :
    ∃ column, Passes s (line.text ++ '\n' :: rest) [] { s with column } ('\n' :: rest) := by
  obtain ⟨column, blanks⟩ := passes_spaces outside line.blank (line.remark ++ '\n' :: rest)
  refine ⟨column, ?_⟩
  rw [BareLine.text, List.append_assoc]
  refine blanks.trans ?_
  rw [BareLine.remark]
  cases found : line.comment with
  | none => exact .done
  | some text =>
    exact passes_comment (s := { s with column }) outside
      (line.legal text (Option.mem_def.mpr found)) rest

/-- Between two lines it leaves everything as it is. -/
theorem AtMargin.passes_bareLine (margin : AtMargin s) (line : BareLine) (rest : List Char) :
    Passes s (line.text ++ '\n' :: rest) [] s rest := by
  obtain ⟨column, passed⟩ := Lexer.passes_bareLine margin.outside line rest
  have ended : Steps { s with column } ('\n' :: rest) [] s rest := by
    obtain ⟨_, _, _, _, _⟩ := s
    obtain ⟨rfl, rfl, rfl⟩ := margin
    exact ⟨Nat.lt_succ_self _, fun pos => ⟨_, rfl, rfl, rfl, rfl⟩⟩
  exact passed.trans ended.passes

theorem AtMargin.passes_bareLines (margin : AtMargin s) (lines : List BareLine)
    (rest : List Char) : Passes s (lines.flatMap (·.text ++ ['\n']) ++ rest) [] s rest := by
  induction lines with
  | nil => exact .done
  | cons line lines ih =>
    have passed := (margin.passes_bareLine line (lines.flatMap (·.text ++ ['\n']) ++ rest)).trans ih
    simpa using passed

/-! Tokens behind a place. -/

theorem Passes.tokensAt_append (h : Passes s (front ++ rest) kinds s' rest) (valid : Valid s)
    (pos : Nat) : Valid s' ∧ ∃ ts, ts.map (·.kind) = kinds ∧ Lexer.tokensAt s pos (front ++ rest) =
      (Lexer.tokensAt s' (pos + front.length) rest).map (ts ++ ·) := by
  obtain ⟨valid', -, ts, same, tokens⟩ := h.tokensAt valid pos
  rw [List.length_append, Nat.add_sub_cancel_right] at tokens
  exact ⟨valid', ts, same, tokens⟩

/-- A text without tokens makes no difference. -/
theorem Passes.tokensAt_silent (h : Passes s (front ++ rest) [] s' rest) (valid : Valid s)
    (pos : Nat) : Valid s' ∧
      Lexer.tokensAt s pos (front ++ rest) = Lexer.tokensAt s' (pos + front.length) rest := by
  obtain ⟨valid', ts, none_read, tokens⟩ := h.tokensAt_append valid pos
  obtain rfl := List.map_eq_nil_iff.mp none_read
  exact ⟨valid', by simpa using tokens⟩

theorem Valid.opening (valid : Valid s) (pos : Nat) : Valid (opening s pos).2 where
  quoted := opening_quoted valid.quoted
  inLine _ := opening_lineOpen valid.inLine
  blocks := opening_nested valid.blocks
  between closed := absurd (closed.symm.trans (opening_lineOpen valid.inLine)) Bool.false_ne_true

/-- The first token of a line stands behind those that open the line. -/
theorem step_opening (outside : s.contexts = []) (start : c ∉ passedOver) (pos : Nat)
    (cs : List Char) : step s pos (c :: cs) = (step (opening s pos).2 pos (c :: cs)).map fun lexed =>
      { lexed with tokens := (opening s pos).1 ++ lexed.tokens } := by
  have outside' : (opening s pos).2.contexts = [] := by
    rw [Lexer.opening]
    split
    · rw [openLine]
      dsimp only
      split <;> exact outside
    · exact outside
  have opened : opening (opening s pos).2 pos = ([], (opening s pos).2) := by
    refine opening_inside (.inr (opening_lineOpen fun inside => absurd outside inside)) pos
  simp only [passedOver, List.mem_cons, List.not_mem_nil, or_false, not_or] at start
  obtain ⟨break_, escape, comment, blank, tab, return_, feed, mark⟩ := start
  rw [step_outside outside, step_outside outside', codeStep_plain break_ escape comment,
    codeStep_plain break_ escape comment]
  simp only [if_neg blank, if_neg tab, if_neg (not_or.mpr ⟨return_, feed⟩),
    if_neg (fun h => mark h.1 : ¬ (c = '\uFEFF' ∧ pos = 0)), opened, Option.map_map]
  rfl

theorem tokensAt_opening (valid : Valid s) (outside : s.contexts = []) (start : c ∉ passedOver)
    (pos : Nat) (cs : List Char) : tokensAt s pos (c :: cs) =
      (tokensAt (opening s pos).2 pos (c :: cs)).map ((opening s pos).1 ++ ·) := by
  have first := step_opening outside start pos cs
  cases read : step (opening s pos).2 pos (c :: cs) with
  | none =>
    rw [read] at first
    rw [tokensAt_of_none first, tokensAt_of_none read]
    rfl
  | some lexed =>
    rw [read] at first
    rw [tokensAt_step valid first, tokensAt_step (valid.opening pos) read, Option.map_map]
    congr 1
    funext ts
    exact List.append_assoc _ _ _

end Lexer

end AgentWorkbench.Python
