import AgentWorkbench.Proofs.Text.Search
import Mathlib.Algebra.BigOperators.Group.List.Basic
import Mathlib.Algebra.Ring.Nat

/-!
How often a text holds a pattern. A pattern without a line break lies inside one line, so its
occurrences in a text are those in its parts, wherever the text is cut at a line boundary, and
those in its lines.
-/
namespace AgentWorkbench.Text

/-- The number of places at which the pattern starts. -/
def occurrences (pat : List Char) : List Char → Nat
  | [] => if pat = [] then 1 else 0
  | c :: cs => (if startsWith pat (c :: cs) then 1 else 0) + occurrences pat cs

variable {pat cs before after : List Char}

theorem occurrences_eq_zero_iff : occurrences pat cs = 0 ↔ contains pat cs = false := by
  induction cs with
  | nil => cases pat <;> simp [occurrences, contains]
  | cons c cs ih => cases h : startsWith pat (c :: cs) <;> simp [occurrences, contains, h, ih]

theorem occurrences_pos_iff : 0 < occurrences pat cs ↔ contains pat cs = true := by
  rw [Nat.pos_iff_ne_zero, ne_eq, occurrences_eq_zero_iff, Bool.not_eq_false]

@[simp] theorem occurrences_nil (ne : pat ≠ []) : occurrences pat [] = 0 := by
  simp [occurrences, ne]

/-- No pattern without a break starts before a line boundary and ends behind it. -/
theorem LineBoundary.startsWith_append {c : Char} (h : LineBoundary (c :: before) after)
    (unbroken : '\n' ∉ pat) :
    startsWith pat (c :: (before ++ after)) = startsWith pat (c :: before) := by
  rw [Bool.eq_iff_iff, startsWith_iff_isPrefix, startsWith_iff_isPrefix, ← List.cons_append]
  refine ⟨fun front => ?_, fun front => front.trans (List.prefix_append _ _)⟩
  obtain short | long := List.prefix_or_prefix_of_prefix front (List.prefix_append _ after)
  · exact short
  · obtain ⟨more, rfl⟩ := long
    rw [List.prefix_append_right_inj] at front
    rw [List.mem_append, not_or] at unbroken
    obtain whole | tail := h
    · exact absurd (whole.eq_nil unbroken.1) (by simp)
    · cases more with
      | nil => simp
      | cons d more =>
        have broken : d = '\n' := (tail.of_isPrefix front) d rfl
        exact absurd (broken ▸ List.mem_cons_self) unbroken.2

theorem LineBoundary.occurrences_append (h : LineBoundary before after) (unbroken : '\n' ∉ pat)
    (ne : pat ≠ []) :
    occurrences pat (before ++ after) = occurrences pat before + occurrences pat after := by
  induction before with
  | nil => rw [List.nil_append, occurrences_nil ne, Nat.zero_add]
  | cons c before ih =>
    have later : LineBoundary before after := h.imp_left (·.of_isSuffix (List.suffix_cons c _))
    rw [List.cons_append, occurrences, h.startsWith_append unbroken, ih later, occurrences,
      Nat.add_assoc]

theorem occurrences_break (rest : List Char) (unbroken : '\n' ∉ pat) (ne : pat ≠ []) :
    occurrences pat ('\n' :: rest) = occurrences pat rest := by
  have seam : LineBoundary ['\n'] rest := .inl (.append_break [])
  have cut : occurrences pat ('\n' :: rest) = occurrences pat ['\n'] + occurrences pat rest :=
    seam.occurrences_append unbroken ne
  have alone : startsWith pat ['\n'] = false := by
    cases pat with
    | nil => contradiction
    | cons p pat => simp [startsWith, stripStart, (List.ne_and_not_mem_of_not_mem_cons unbroken).1.symm]
  rw [cut, occurrences, alone, occurrences_nil ne]
  simp

/-- The occurrences in a text are those in its lines. -/
theorem occurrences_eq_sum (unbroken : '\n' ∉ pat) (ne : pat ≠ []) (cs : List Char) :
    occurrences pat cs = ((splitOn '\n' cs).map (occurrences pat)).sum := by
  induction cs using line_induction with
  | last body clean => simp [splitOn_last clean]
  | line body rest clean ih =>
    have boundary : LineBoundary body ('\n' :: rest) := .inr (.break rest)
    rw [splitOn_part clean, List.map_cons, List.sum_cons, ← ih,
      boundary.occurrences_append unbroken ne, occurrences_break rest unbroken ne]

end AgentWorkbench.Text
