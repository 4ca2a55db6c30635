import AgentWorkbench.Proofs.Instrument.Guard
import AgentWorkbench.Proofs.Text.Occurrences

/-!
Insertions that bring their own breaks. Such an insertion puts whole lines between two lines of the
text: it breaks up no line of the text and joins none to another one, and a pattern without a break
occurs in the result as often as in the text and in the block together.
-/
namespace AgentWorkbench.Text

/-- A line tail adds its lines to those of the text before it. -/
theorem splitOn_append_tail (cs : List Char) {tail : List Char} (ht : LineTail tail) :
    splitOn '\n' (cs ++ tail) = splitOn '\n' cs ++ linesAfter tail := by
  induction cs using line_induction with
  | last body clean => rw [splitOn_line_tail clean ht, splitOn_last clean]; rfl
  | line body rest clean ih =>
      rw [List.append_assoc, List.cons_append, splitOn_part clean, ih, splitOn_part clean]
      rfl

theorem splitOn_break (rest : List Char) : splitOn '\n' ('\n' :: rest) = [] :: splitOn '\n' rest :=
  splitOn_part List.not_mem_nil rest

/-- The lines of a text that ends each of its lines with a break. -/
theorem splitOn_flatMap_break {lines : List (List Char)} (clean : ∀ line ∈ lines, '\n' ∉ line)
    (rest : List Char) :
    splitOn '\n' (lines.flatMap (· ++ ['\n']) ++ rest) = lines ++ splitOn '\n' rest := by
  induction lines with
  | nil => rfl
  | cons line lines ih =>
      have here := clean line List.mem_cons_self
      have more := ih fun other h => clean other (List.mem_cons_of_mem _ h)
      rw [List.flatMap_cons, List.append_assoc, List.append_assoc, List.singleton_append,
        splitOn_part here, more, List.cons_append]

theorem lineTail_flatMap {α : Type} (f : α → List Char) (xs : List α) :
    LineTail (xs.flatMap fun x => '\n' :: f x) := by
  cases xs with
  | nil => exact .nil
  | cons x xs => exact .break _

theorem wholeLines_flatMap {α : Type} (f : α → List Char) (xs : List α) :
    WholeLines (xs.flatMap fun x => f x ++ ['\n']) := by
  induction xs with
  | nil => exact .nil
  | cons x xs ih => exact (WholeLines.append_break (f x)).append ih

/-- The lines of a text that starts each of its lines with a break. -/
theorem linesAfter_flatMap_break {lines : List (List Char)} (clean : ∀ line ∈ lines, '\n' ∉ line) :
    linesAfter (lines.flatMap fun line => '\n' :: line) = lines := by
  induction lines with
  | nil => rfl
  | cons line lines ih =>
      have more := ih fun other h => clean other (List.mem_cons_of_mem _ h)
      rw [List.flatMap_cons, List.cons_append]
      exact (splitOn_line_tail (clean line List.mem_cons_self)
        (lineTail_flatMap (fun line => line) lines)).trans (congrArg _ more)

/-- A cut in front of a later piece is one behind whole lines. -/
theorem wholeLines_take_pieces {cs : List Char} {n : Nat} (h : n < (pieces cs).length) :
    WholeLines ((pieces cs).take n).flatten := by
  induction cs using line_induction generalizing n with
  | last body clean =>
      obtain rfl | ne := eq_or_ne body []
      · simp at h
      · rw [pieces_last ne clean, List.length_singleton, Nat.lt_one_iff] at h
        simp [h]
  | line body rest clean ih =>
      cases n with
      | zero => simp
      | succ n =>
          rw [pieces_line clean, List.length_cons, Nat.succ_lt_succ_iff] at h
          rw [pieces_line clean, List.take_succ_cons, List.flatten_cons]
          exact (WholeLines.append_break body).append (ih h)

end AgentWorkbench.Text

namespace AgentWorkbench.Instrument

open Text

/-- The block is whole lines above a line of the text, or it starts each of its lines with a break
and goes below one. -/
inductive Insertion.Fits (i : Insertion) : Prop
  | above (before : WholeLines i.before) (block : WholeLines i.block)
  | below (block : LineTail i.block) (after : LineTail i.after)

namespace Insertion.Fits

variable {i : Insertion}

/-- The lines of the text stay, with lines of the block between two of them. -/
theorem lines_text (h : i.Fits) : ∃ above inserted below,
    splitOn '\n' i.source = above ++ below ∧
      splitOn '\n' i.text = above ++ inserted ++ below := by
  obtain ⟨before, block⟩ | ⟨block, after⟩ := h
  · obtain ⟨above, cut⟩ := before.exists_splitOn
    obtain ⟨inserted, cut'⟩ := block.exists_splitOn
    refine ⟨above, inserted, splitOn '\n' i.after, cut i.after, ?_⟩
    rw [text, List.append_assoc, cut, cut', List.append_assoc]
  · refine ⟨splitOn '\n' i.before, linesAfter i.block, linesAfter i.after,
      splitOn_append_tail i.before after, ?_⟩
    rw [text, splitOn_append_tail _ after, splitOn_append_tail _ block]

theorem lines_sublist (h : i.Fits) : (splitOn '\n' i.source).Sublist (splitOn '\n' i.text) := by
  obtain ⟨above, inserted, below, source, text⟩ := h.lines_text
  rw [source, text]
  exact (List.sublist_append_left above inserted).append (List.Sublist.refl below)

theorem occurrences_text (h : i.Fits) {pat : List Char} (unbroken : '\n' ∉ pat) (ne : pat ≠ []) :
    occurrences pat i.text = occurrences pat i.source + occurrences pat i.block := by
  have split_block : LineBoundary i.before i.block ∧ LineBoundary (i.before ++ i.block) i.after ∧
      LineBoundary i.before i.after := by
    obtain ⟨before, block⟩ | ⟨block, after⟩ := h
    · exact ⟨.inl before, .inl (before.append block), .inl before⟩
    · exact ⟨.inr block, .inr after, .inr after⟩
  obtain ⟨seam, seam', whole⟩ := split_block
  rw [text, source, seam'.occurrences_append unbroken ne, seam.occurrences_append unbroken ne,
    whole.occurrences_append unbroken ne]
  omega

end Insertion.Fits

/-- A break is put behind a text that does not end in one. -/
theorem closingBreak_cases (before : List Char) : (closingBreak before = [] ∧ WholeLines before) ∨
    (closingBreak before = ['\n'] ∧ ¬ WholeLines before) := by
  rw [closingBreak]
  split
  · next closed =>
    refine .inl ⟨rfl, fun c last => ?_⟩
    obtain empty | closed := closed
    · simp [List.isEmpty_iff.mp empty] at last
    · exact (Option.some.inj (closed.symm.trans last)).symm
  · next unclosed =>
    refine .inr ⟨rfl, fun whole => unclosed ?_⟩
    by_cases empty : before = []
    · exact .inl (List.isEmpty_iff.mpr empty)
    · have last := List.getLast?_eq_some_getLast empty
      exact .inr (last.trans (congrArg some (whole _ last)))

theorem importsInsertion?_fits {source : List Char} {i : Insertion}
    (h : importsInsertion? source = some i) : i.Fits := by
  have boundary := (importsInsertion?_into h).boundary
  rw [importsInsertion?] at h
  split at h
  · contradiction
  · cases h
    generalize ((pieces source).take _).flatten = before at boundary ⊢
    dsimp only at boundary ⊢
    obtain ⟨closed, whole⟩ | ⟨closed, broken⟩ := closingBreak_cases before
    · rw [closed]
      exact .above whole (wholeLines_flatMap _ _)
    · rw [closed]
      exact .below (.break _) (boundary.resolve_left broken)

theorem wholeLines_append_gap (cs : List Char) : WholeLines (cs ++ ['\n', '\n']) := by
  simp [WholeLines]

theorem lineTail_routineGap (source rest : List Char) : LineTail (routineGap source ++ rest) := by
  rw [routineGap]
  split <;> exact .break _

theorem routineInsertion?_fits {source : List Char} {i : Insertion}
    (h : routineInsertion? source = some i) : i.Fits := by
  rw [routineInsertion?] at h
  split at h
  · contradiction
  · dsimp only at h
    split at h
    · next n found =>
      cases h
      refine .above (wholeLines_take_pieces ?_) ?_
      · rw [routineLine?, Option.map_eq_some_iff] at found
        obtain ⟨k, first, rfl⟩ := found
        exact Nat.lt_of_le_of_lt (Nat.sub_le _ _) (List.findIdx?_eq_some_iff_getElem.mp first).1
      · exact wholeLines_append_gap routine.toList
    · cases h
      exact .below (lineTail_routineGap source routine.toList) .nil

theorem hookInsertion?_fits {source : List Char} {i : Insertion}
    (h : hookInsertion? source = some i) : i.Fits := by
  obtain ⟨-, before, g, -, -, rfl⟩ := hookInsertion?_eq_some_iff.mp h
  exact .below (lineTail_flatMap _ _) (lineTail_dropWhile g.after)

end AgentWorkbench.Instrument
