import AgentWorkbench.Text.Lines
import Mathlib.Data.List.Basic
import Mathlib.Data.List.TakeWhile

/-!
Dropping the end of a text, one character or the longest run of a kind: what is dropped stands at
the end, and a text is left alone whose end is of another kind.
-/
namespace AgentWorkbench.Text

theorem getLast?_ne_of_not_mem {c : Char} {cs : List Char} (h : c ∉ cs) :
    cs.getLast? ≠ some c := by
  intro last
  exact h (List.mem_of_getLast? last)

theorem dropLast_of_ne {c : Char} {cs : List Char} (h : cs.getLast? ≠ some c) :
    dropLast c cs = cs := by
  simp [dropLast, h]

@[simp] theorem dropLast_append_self (c : Char) (cs : List Char) :
    dropLast c (cs ++ [c]) = cs := by
  simp [dropLast]

theorem dropLast_length_le (c : Char) (cs : List Char) :
    (dropLast c cs).length ≤ cs.length := by
  rw [dropLast]
  split <;> simp

theorem exists_dropLast_append (c : Char) (cs : List Char) :
    ∃ dropped, (dropped = [] ∨ dropped = [c]) ∧ cs = dropLast c cs ++ dropped := by
  by_cases h : cs.getLast? = some c
  · refine ⟨[c], .inr rfl, ?_⟩
    rw [dropLast, if_pos h, List.dropLast_append_getLast? c h]
  · exact ⟨[], .inl rfl, by simp [dropLast, h]⟩

theorem dropEndWhile_append {p : Char → Bool} {cs dropped : List Char}
    (all : ∀ c ∈ dropped, p c = true) (stop : ∀ c ∈ cs.getLast?, p c = false) :
    dropEndWhile p (cs ++ dropped) = cs := by
  have front : dropped.reverse.dropWhile p = [] :=
    List.dropWhile_eq_nil_iff.mpr fun c hc => all c (List.mem_reverse.mp hc)
  have back : cs.reverse.dropWhile p = cs.reverse := by
    cases h : cs.reverse with
    | nil => rfl
    | cons c rest =>
        have last : cs.getLast? = some c := by rw [List.getLast?_eq_head?_reverse, h]; rfl
        simp [stop c last]
  rw [dropEndWhile, List.reverse_append, List.dropWhile_append, front, back]
  simp

theorem exists_dropEndWhile_append (p : Char → Bool) (cs : List Char) :
    ∃ dropped, (∀ c ∈ dropped, p c = true) ∧ cs = dropEndWhile p cs ++ dropped := by
  refine ⟨(cs.reverse.takeWhile p).reverse, ?_, ?_⟩
  · intro c hc
    exact List.mem_takeWhile_imp (List.mem_reverse.mp hc)
  · rw [dropEndWhile, ← List.reverse_append, List.takeWhile_append_dropWhile,
      List.reverse_reverse]

theorem trim_cons_blank {c : Char} (h : isBlank c = true) (cs : List Char) :
    trim (c :: cs) = trim cs := by
  simp [trim, trimStart, h]

theorem allBlank_iff {cs : List Char} : allBlank cs = true ↔ ∀ c ∈ cs, isBlank c = true :=
  List.all_eq_true

theorem exists_trim_append (cs : List Char) :
    ∃ front rear, allBlank front = true ∧ allBlank rear = true ∧ cs = front ++ (trim cs ++ rear) := by
  obtain ⟨rear, blank, cut⟩ := exists_dropEndWhile_append isBlank (trimStart cs)
  refine ⟨cs.takeWhile isBlank, rear, allBlank_iff.mpr fun c mem => List.mem_takeWhile_imp mem,
    allBlank_iff.mpr blank, ?_⟩
  rw [trim, trimEnd, ← cut, trimStart, List.takeWhile_append_dropWhile]

theorem trimStart_append_of_blank {xs : List Char} (h : allBlank xs = true) (ys : List Char) :
    trimStart (xs ++ ys) = trimStart ys :=
  List.dropWhile_append_of_pos (allBlank_iff.mp h)

theorem trimStart_append {xs : List Char} (h : allBlank xs = false) (ys : List Char) :
    trimStart (xs ++ ys) = trimStart xs ++ ys := by
  have some_left : xs.dropWhile isBlank ≠ [] := by
    rw [Ne, List.dropWhile_eq_nil_iff, ← allBlank_iff, h]
    exact Bool.false_ne_true
  rw [trimStart, List.dropWhile_append, if_neg (by simpa using some_left), trimStart]

theorem trimStart_eq_self {cs : List Char} (solid : ∀ c ∈ cs.head?, isBlank c = false) :
    trimStart cs = cs := by
  cases cs with
  | nil => rfl
  | cons c cs => rw [trimStart, List.dropWhile_cons, solid c rfl, if_neg Bool.false_ne_true]

theorem trimEnd_eq_reverse (cs : List Char) : trimEnd cs = (trimStart cs.reverse).reverse := rfl

theorem allBlank_reverse (cs : List Char) : allBlank cs.reverse = allBlank cs :=
  List.all_reverse

theorem trimEnd_append_of_blank (xs : List Char) {ys : List Char} (h : allBlank ys = true) :
    trimEnd (xs ++ ys) = trimEnd xs := by
  rw [trimEnd_eq_reverse, List.reverse_append, trimStart_append_of_blank (by rwa [allBlank_reverse]),
    trimEnd_eq_reverse]

theorem trimEnd_append (xs : List Char) {ys : List Char} (h : allBlank ys = false) :
    trimEnd (xs ++ ys) = xs ++ trimEnd ys := by
  rw [trimEnd_eq_reverse, List.reverse_append, trimStart_append (by rwa [allBlank_reverse]),
    List.reverse_append, List.reverse_reverse, trimEnd_eq_reverse]

theorem trimEnd_eq_self {cs : List Char} (solid : ∀ c ∈ cs.getLast?, isBlank c = false) :
    trimEnd cs = cs := by
  rw [trimEnd_eq_reverse, trimStart_eq_self (by rwa [List.head?_reverse]), List.reverse_reverse]

theorem trim_append_of_blank (xs : List Char) {ys : List Char} (h : allBlank ys = true) :
    trim (xs ++ ys) = trim xs := by
  cases blank : allBlank xs with
  | true =>
      have all : allBlank (xs ++ ys) = true := by
        rw [allBlank, List.all_append, Bool.and_eq_true]
        exact ⟨blank, h⟩
      have none_left {zs : List Char} (h : allBlank zs = true) : trimStart zs = [] := by
        simpa [trimStart] using trimStart_append_of_blank h []
      rw [trim, trim, none_left all, none_left blank]
  | false => rw [trim, trimStart_append blank, trimEnd_append_of_blank _ h, trim]

/-- The first character that is no blank is where trimming stops. -/
theorem exists_trim_cons {blanks : List Char} {c : Char} (blank : allBlank blanks = true)
    (solid : isBlank c = false) (cs : List Char) : ∃ rest, trim (blanks ++ c :: cs) = c :: rest := by
  have start : trimStart (c :: cs) = [c] ++ cs := trimStart_eq_self (by rintro _ ⟨⟩; exact solid)
  rw [trim, trimStart_append_of_blank blank, start]
  cases rear : allBlank cs with
  | true =>
      refine ⟨[], ?_⟩
      rw [trimEnd_append_of_blank _ rear]
      exact trimEnd_eq_self (by rintro _ ⟨⟩; exact solid)
  | false => exact ⟨trimEnd cs, trimEnd_append _ rear⟩

theorem trim_dropLast {c : Char} (blank : isBlank c = true) (cs : List Char) :
    trim (dropLast c cs) = trim cs := by
  obtain ⟨dropped, rfl | rfl, cut⟩ := exists_dropLast_append c cs
  · rw [List.append_nil] at cut
    rw [← cut]
  · conv_rhs => rw [cut]
    exact (trim_append_of_blank _ (by simp [allBlank, blank])).symm

end AgentWorkbench.Text
