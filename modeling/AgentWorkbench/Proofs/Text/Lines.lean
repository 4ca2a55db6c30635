import AgentWorkbench.Proofs.Text.Trim
import AgentWorkbench.Text.Lines
import Mathlib.Data.List.TakeWhile

/-!
Texts read line by line. A text of whole lines is empty or ends in a break; cutting a text into
pieces goes through such a text, so it can be done piecewise. Statements about all texts are
proved by one induction, over the first line and what follows it.
-/
namespace AgentWorkbench.Text

/-- The text is empty or ends in a break: a line starts where it ends. -/
def WholeLines (cs : List Char) : Prop :=
  ∀ c ∈ cs.getLast?, c = '\n'

instance : DecidablePred WholeLines := fun cs =>
  decidable_of_iff (cs.getLast?.all (· = '\n')) (by simp [WholeLines, Option.all_eq_true])

/-- The text up to its last break. -/
def completeLines (cs : List Char) : List Char :=
  dropEndWhile (· ≠ '\n') cs

theorem line_induction {P : List Char → Prop}
    (last : ∀ body, '\n' ∉ body → P body)
    (line : ∀ body rest, '\n' ∉ body → P rest → P (body ++ '\n' :: rest))
    (cs : List Char) : P cs := by
  suffices ∀ body, '\n' ∉ body → P (body ++ cs) by simpa using this [] (by simp)
  induction cs with
  | nil => simpa using last
  | cons c cs ih =>
      intro body clean
      by_cases h : c = '\n'
      · subst h
        exact line body cs clean (by simpa using ih [] (by simp))
      · simpa using ih (body ++ [c]) (by simp [clean, Ne.symm h])

namespace WholeLines

@[simp] theorem nil : WholeLines [] := by
  simp [WholeLines]

@[simp] theorem append_break (cs : List Char) : WholeLines (cs ++ ['\n']) := by
  simp [WholeLines]

theorem append {xs ys : List Char} (hx : WholeLines xs) (hy : WholeLines ys) :
    WholeLines (xs ++ ys) := by
  intro c hc
  cases ys with
  | nil => exact hx c (by simpa using hc)
  | cons y ys =>
      apply hy c
      simpa [List.getLast?_append] using hc

theorem line_append_iff {body rest : List Char} :
    WholeLines (body ++ '\n' :: rest) ↔ WholeLines rest := by
  constructor
  · intro h c hc
    apply h c
    cases rest with
    | nil => simp at hc
    | cons d rest => simpa [List.getLast?_append, List.getLast?_cons_cons] using hc
  · intro h
    simpa using (append_break body).append h

theorem eq_nil {body : List Char} (h : WholeLines body) (clean : '\n' ∉ body) : body = [] := by
  by_contra ne
  have last := h (body.getLast ne) (List.getLast?_eq_some_getLast ne)
  exact clean (last ▸ List.getLast_mem ne)

theorem of_isSuffix {xs ys : List Char} (h : WholeLines xs) (suffix : ys <:+ xs) :
    WholeLines ys := by
  obtain ⟨front, rfl⟩ := suffix
  intro c last
  apply h c
  rw [List.getLast?_append, Option.mem_def.mp last]
  rfl

end WholeLines

@[simp] theorem pieces_nil : pieces [] = [] := rfl

theorem pieces_line {body : List Char} (clean : '\n' ∉ body) (rest : List Char) :
    pieces (body ++ '\n' :: rest) = (body ++ ['\n']) :: pieces rest := by
  induction body with
  | nil => simp [pieces]
  | cons c body ih =>
      obtain ⟨hc, hb⟩ := List.ne_and_not_mem_of_not_mem_cons clean
      simp [pieces, Ne.symm hc, ih hb]

theorem pieces_last {body : List Char} (ne : body ≠ []) (clean : '\n' ∉ body) :
    pieces body = [body] := by
  induction body with
  | nil => contradiction
  | cons c body ih =>
      obtain ⟨hc, hb⟩ := List.ne_and_not_mem_of_not_mem_cons clean
      cases body with
      | nil => simp [pieces, Ne.symm hc]
      | cons d body => rw [pieces, ih (by simp) hb]; simp [Ne.symm hc]

theorem pieces_append {done : List Char} (whole : WholeLines done) (rest : List Char) :
    pieces (done ++ rest) = pieces done ++ pieces rest := by
  induction done using line_induction with
  | last body clean => simp [whole.eq_nil clean]
  | line body more clean ih =>
      have := ih (WholeLines.line_append_iff.mp whole)
      simp [pieces_line, clean, this]

theorem lines_append {done : List Char} (whole : WholeLines done) (rest : List Char) :
    lines (done ++ rest) = lines done ++ lines rest := by
  rw [lines, pieces_append whole, List.map_append]
  rfl

theorem lines_part {part : List Char} (clean : '\n' ∉ part) (rest : List Char) :
    lines (part ++ '\n' :: rest) = dropLast '\r' part :: lines rest := by
  rw [lines, pieces_line clean, List.map_cons, List.getLast?_concat, if_pos rfl,
    List.dropLast_concat]
  rfl

theorem lines_last {part : List Char} (ne : part ≠ []) (clean : '\n' ∉ part) :
    lines part = [part] := by
  rw [lines, pieces_last ne clean, List.map_singleton, if_neg (getLast?_ne_of_not_mem clean)]

theorem unbroken_of_mem_lines {cs line : List Char} (h : line ∈ lines cs) : '\n' ∉ line := by
  induction cs using line_induction with
  | last part clean =>
      by_cases ne : part = []
      · subst ne
        cases h
      · rw [lines_last ne clean] at h
        exact List.mem_singleton.mp h ▸ clean
  | line part rest clean ih =>
      rw [lines_part clean] at h
      obtain rfl | h := List.mem_cons.mp h
      · obtain ⟨dropped, -, cut⟩ := exists_dropLast_append '\r' part
        exact fun mem => clean (cut ▸ List.mem_append_left _ mem)
      · exact ih h

theorem completeLines_last {body : List Char} (clean : '\n' ∉ body) :
    completeLines body = [] := by
  have all : ∀ c ∈ body.reverse, decide (c ≠ '\n') = true := by
    intro c hc
    exact decide_eq_true fun h => clean (h ▸ List.mem_reverse.mp hc)
  rw [completeLines, dropEndWhile, List.dropWhile_eq_nil_iff.mpr all, List.reverse_nil]

theorem completeLines_line (body rest : List Char) :
    completeLines (body ++ '\n' :: rest) = body ++ '\n' :: completeLines rest := by
  simp only [completeLines, dropEndWhile, List.reverse_append, List.reverse_cons,
    List.append_assoc, List.dropWhile_append]
  split
  · next h => simp_all
  · simp

theorem wholeLines_completeLines (cs : List Char) : WholeLines (completeLines cs) := by
  induction cs using line_induction with
  | last body clean => simp [completeLines_last clean]
  | line body rest clean ih => rwa [completeLines_line, WholeLines.line_append_iff]

theorem WholeLines.completeLines_eq {cs : List Char} (h : WholeLines cs) :
    completeLines cs = cs := by
  induction cs using line_induction with
  | last body clean => rw [completeLines_last clean, h.eq_nil clean]
  | line body rest clean ih => rw [completeLines_line, ih (line_append_iff.mp h)]

/-- A text is its complete lines and one unfinished line, which may be empty. -/
theorem exists_unfinished (cs : List Char) :
    ∃ part, '\n' ∉ part ∧ cs = completeLines cs ++ part := by
  induction cs using line_induction with
  | last body clean => exact ⟨body, clean, by simp [completeLines_last clean]⟩
  | line body rest _ ih =>
      obtain ⟨part, clean, h⟩ := ih
      refine ⟨part, clean, ?_⟩
      rw [completeLines_line, List.append_assoc, List.cons_append, ← h]

theorem splitOn_last {c : Char} {part : List Char} (clean : c ∉ part) :
    splitOn c part = [part] := by
  induction part with
  | nil => rfl
  | cons d part ih =>
      obtain ⟨hd, hp⟩ := List.ne_and_not_mem_of_not_mem_cons clean
      simp [splitOn, Ne.symm hd, ih hp]

theorem splitOn_part {c : Char} {part : List Char} (clean : c ∉ part) (rest : List Char) :
    splitOn c (part ++ c :: rest) = part :: splitOn c rest := by
  induction part with
  | nil => simp [splitOn]
  | cons d part ih =>
      obtain ⟨hd, hp⟩ := List.ne_and_not_mem_of_not_mem_cons clean
      simp [splitOn, Ne.symm hd, ih hp]

theorem unbroken_of_mem_splitOn {c : Char} {cs part : List Char} (h : part ∈ splitOn c cs) :
    c ∉ part := by
  induction cs generalizing part with
  | nil =>
      obtain rfl := List.mem_singleton.mp h
      exact List.not_mem_nil
  | cons d cs ih =>
      by_cases here : d = c
      · rw [splitOn, if_pos here] at h
        obtain rfl | h := List.mem_cons.mp h
        · exact List.not_mem_nil
        · exact ih h
      · rw [splitOn, if_neg here] at h
        cases cut : splitOn c cs with
        | nil => exact absurd cut (splitOn_ne_nil c cs)
        | cons first rest =>
            rw [cut] at h ih
            obtain rfl | h := List.mem_cons.mp h
            · have clean := ih List.mem_cons_self
              simp [Ne.symm here, clean]
            · exact ih (List.mem_cons_of_mem _ h)

theorem splitOn_join {c : Char} {parts : List (List Char)} (ne : parts ≠ [])
    (clean : ∀ part ∈ parts, c ∉ part) : splitOn c (join [c] parts) = parts := by
  induction parts with
  | nil => contradiction
  | cons part rest ih =>
      obtain ⟨first, others⟩ := List.forall_mem_cons.mp clean
      cases rest with
      | nil => exact splitOn_last first
      | cons next rest =>
          rw [join, List.append_assoc, List.singleton_append, splitOn_part first,
            ih (List.cons_ne_nil _ _) others]
          exact List.cons_ne_nil _ _

theorem mem_join {c : Char} {sep part : List Char} {parts : List (List Char)} (h : part ∈ parts)
    (mem : c ∈ part) : c ∈ join sep parts := by
  induction parts with
  | nil => cases h
  | cons first rest ih =>
      cases rest with
      | nil => exact List.mem_singleton.mp h ▸ mem
      | cons next rest =>
          rw [join, List.append_assoc]
          · obtain rfl | h := List.mem_cons.mp h
            · exact List.mem_append_left _ mem
            · exact List.mem_append_right _ (List.mem_append_right _ (ih h))
          · exact List.cons_ne_nil _ _

theorem splitOn_append_clean {c : Char} {front cs first : List Char} {others : List (List Char)}
    (clean : c ∉ front) (cut : splitOn c cs = first :: others) :
    splitOn c (front ++ cs) = (front ++ first) :: others := by
  induction front with
  | nil => exact cut
  | cons d front ih =>
      obtain ⟨ne, clean⟩ := List.ne_and_not_mem_of_not_mem_cons clean
      rw [List.cons_append, splitOn, if_neg ne.symm, ih clean]
      rfl

theorem WholeLines.exists_splitOn {done : List Char} (whole : WholeLines done) :
    ∃ lines, ∀ rest, splitOn '\n' (done ++ rest) = lines ++ splitOn '\n' rest := by
  induction done using line_induction with
  | last body clean =>
      obtain rfl := whole.eq_nil clean
      exact ⟨[], fun rest => rfl⟩
  | line body more clean ih =>
      obtain ⟨lines, cut⟩ := ih (line_append_iff.mp whole)
      refine ⟨body :: lines, fun rest => ?_⟩
      rw [List.append_assoc, List.cons_append, splitOn_part clean, cut, List.cons_append]

/-- What follows a line: nothing, or its break and more lines. -/
def LineTail (cs : List Char) : Prop :=
  ∀ c ∈ cs.head?, c = '\n'

@[simp] theorem LineTail.nil : LineTail [] := by
  simp [LineTail]

@[simp] theorem LineTail.break (cs : List Char) : LineTail ('\n' :: cs) := by
  simp [LineTail]

theorem LineTail.of_isPrefix {cs ds : List Char} (h : LineTail cs) (start : ds <+: cs) :
    LineTail ds := by
  obtain ⟨rest, rfl⟩ := start
  intro c first
  cases ds with
  | nil => contradiction
  | cons d ds => exact h c first

/-- The lines of a text after its first one. -/
def linesAfter : List Char → List (List Char)
  | [] => []
  | _ :: rest => splitOn '\n' rest

theorem splitOn_line_tail {line tail : List Char} (clean : '\n' ∉ line) (ht : LineTail tail) :
    splitOn '\n' (line ++ tail) = line :: linesAfter tail := by
  cases tail with
  | nil => rw [List.append_nil, splitOn_last clean, linesAfter]
  | cons c rest =>
      obtain rfl : c = '\n' := ht c rfl
      rw [splitOn_part clean, linesAfter]

theorem exists_line_tail (cs : List Char) :
    ∃ line tail, cs = line ++ tail ∧ '\n' ∉ line ∧ LineTail tail := by
  by_cases broken : '\n' ∈ cs
  · obtain ⟨line, rest, rfl, clean⟩ := List.eq_append_cons_of_mem broken
    exact ⟨line, '\n' :: rest, rfl, clean, .break rest⟩
  · exact ⟨cs, [], by simp, broken, .nil⟩

/-- A text has one first line and one tail after it. -/
theorem line_tail_unique {xs ys tail tail' : List Char} (hx : '\n' ∉ xs) (hy : '\n' ∉ ys)
    (ht : LineTail tail) (ht' : LineTail tail') (h : xs ++ tail = ys ++ tail') :
    xs = ys ∧ tail = tail' := by
  induction xs generalizing ys with
  | nil =>
      cases ys with
      | nil => exact ⟨rfl, h⟩
      | cons y ys =>
          subst h
          exact absurd (ht y rfl) (List.ne_and_not_mem_of_not_mem_cons hy).1.symm
  | cons x xs ih =>
      cases ys with
      | nil =>
          cases tail' with
          | nil => simp at h
          | cons c tail' =>
              obtain ⟨rfl, -⟩ := List.cons_eq_cons.mp h
              exact absurd (ht' x rfl) (List.ne_and_not_mem_of_not_mem_cons hx).1.symm
      | cons y ys =>
          obtain ⟨rfl, same⟩ := List.cons_eq_cons.mp h
          obtain ⟨rfl, rfl⟩ := ih (List.ne_and_not_mem_of_not_mem_cons hx).2
            (List.ne_and_not_mem_of_not_mem_cons hy).2 same
          exact ⟨rfl, rfl⟩

end AgentWorkbench.Text
