import AgentWorkbench.Instrument.Basic
import AgentWorkbench.Proofs.Text.Search
import Mathlib.Data.Option.Basic

/-!
Where instrumenting inserts. Each of its steps cuts the text at a line boundary, so that whatever
stands on one line of the text still stands there after the step.
-/
namespace AgentWorkbench.Instrument

open Text

/-- The insertion is one into this text, at a line boundary. -/
structure Insertion.Into (i : Insertion) (source : List Char) : Prop where
  source_eq : i.source = source
  boundary : LineBoundary i.before i.after

theorem importsInsertion?_into {source : List Char} {i : Insertion}
    (h : importsInsertion? source = some i) : i.Into source := by
  rw [importsInsertion?] at h
  split at h
  · contradiction
  · cases h
    refine ⟨?_, lineBoundary_pieces source _⟩
    rw [Insertion.source, ← List.flatten_append, List.take_append_drop, flatten_pieces]

theorem routineInsertion?_into {source : List Char} {i : Insertion}
    (h : routineInsertion? source = some i) : i.Into source := by
  rw [routineInsertion?] at h
  split at h
  · contradiction
  · dsimp only at h
    split at h
    · cases h
      refine ⟨?_, lineBoundary_pieces source _⟩
      rw [Insertion.source, ← List.flatten_append, List.take_append_drop, flatten_pieces]
    · cases h
      exact ⟨List.append_nil source, .inr .nil⟩

theorem afterQuote?_isSuffix {cs rest : List Char} (h : afterQuote? cs = some rest) :
    rest <:+ cs := by
  cases cs with
  | nil => contradiction
  | cons c cs =>
      simp only [afterQuote?, Option.ite_none_right_eq_some, Option.some.injEq] at h
      rw [← h.2]
      exact List.suffix_cons c cs

theorem guardAt?_after_isSuffix {cs : List Char} {g : MainGuard} (h : guardAt? cs = some g) :
    g.after <:+ cs ∧ g.text = cs.take (cs.length - g.after.length) := by
  simp only [guardAt?, Option.bind_eq_bind, Option.bind_eq_some_iff, Option.pure_def,
    Option.some.injEq] at h
  obtain ⟨r₁, h₁, -, -, r₂, h₂, r₃, h₃, r₄, h₄, r₅, h₅, r₆, h₆, r₇, h₇, rfl⟩ := h
  refine ⟨?_, rfl⟩
  calc r₇ <:+ dropBlanks r₆ := isSuffix_of_stripStart h₇
    _ <:+ r₆ := List.dropWhile_suffix _
    _ <:+ r₅ := afterQuote?_isSuffix h₆
    _ <:+ r₄ := isSuffix_of_stripStart h₅
    _ <:+ dropBlanks r₃ := afterQuote?_isSuffix h₄
    _ <:+ r₃ := List.dropWhile_suffix _
    _ <:+ dropBlanks r₂ := isSuffix_of_stripStart h₃
    _ <:+ r₂ := List.dropWhile_suffix _
    _ <:+ dropBlanks r₁ := isSuffix_of_stripStart h₂
    _ <:+ r₁ := List.dropWhile_suffix _
    _ <:+ cs.dropWhile isIndent := isSuffix_of_stripStart h₁
    _ <:+ cs := List.dropWhile_suffix _

theorem guardAt?_cut {cs : List Char} {g : MainGuard} (h : guardAt? cs = some g) :
    g.text ++ g.after = cs := by
  obtain ⟨suffix, text⟩ := guardAt?_after_isSuffix h
  rw [text]
  exact List.suffix_iff_eq_append.mp suffix

theorem firstGuard?_cut {lineStart : Bool} {cs before : List Char} {g : MainGuard}
    (h : firstGuard? lineStart cs = some (before, g)) : before ++ g.text ++ g.after = cs := by
  induction cs generalizing lineStart before with
  | nil => contradiction
  | cons c rest ih =>
      rw [firstGuard?] at h
      split at h
      · next found =>
          cases h
          split at found
          · exact guardAt?_cut found
          · contradiction
      · simp only [Option.map_eq_some_iff] at h
        obtain ⟨⟨front, g'⟩, later, same⟩ := h
        cases same
        rw [List.cons_append, List.cons_append, ih later]

theorem lineTail_dropWhile (cs : List Char) : LineTail (cs.dropWhile (· ≠ '\n')) := by
  intro c hc
  have stop := List.head?_dropWhile_not (fun c => decide (c ≠ '\n')) cs
  rw [hc] at stop
  simpa using stop

theorem hookInsertion?_into {source : List Char} {i : Insertion}
    (h : hookInsertion? source = some i) : i.Into source := by
  simp only [hookInsertion?, Option.bind_eq_bind, Option.bind_eq_some_iff, Option.pure_def,
    Option.some.injEq] at h
  obtain ⟨-, -, ⟨before, g⟩, found, -, -, rfl⟩ := h
  refine ⟨?_, .inr (lineTail_dropWhile g.after)⟩
  have whole : before ++ g.text ++ g.after = source := firstGuard?_cut found
  simpa [Insertion.source] using whole

/-- An insertion keeps what the text holds on one of its lines. -/
theorem Insertion.Into.contains_text {i : Insertion} {source pat : List Char} (h : i.Into source)
    (unbroken : '\n' ∉ pat) (held : contains pat source = true) : contains pat i.text = true := by
  rw [contains_iff_isInfix, ← h.source_eq, Insertion.source,
    h.boundary.isInfix_append_iff unbroken] at held
  rw [contains_iff_isInfix, Insertion.text]
  obtain held | held := held
  · rw [List.append_assoc]
    exact held.trans (List.infix_append' [] i.before _)
  · exact held.trans (List.suffix_append _ i.after).isInfix

theorem contains_block {i : Insertion} {pat : List Char} (held : pat <:+: i.block) :
    contains pat i.text = true := by
  rw [contains_iff_isInfix, Insertion.text]
  exact held.trans (List.infix_append i.before i.block i.after)

/-- A step that makes insertions at line boundaries keeps what stands on one line. -/
theorem contains_insertOr {insertion? : List Char → Option Insertion}
    (into : ∀ {source i}, insertion? source = some i → i.Into source) {source pat : List Char}
    (unbroken : '\n' ∉ pat) (held : contains pat source = true) :
    contains pat (insertOr source (insertion? source)) = true := by
  cases made : insertion? source with
  | none => exact held
  | some i => exact (into made).contains_text unbroken held

end AgentWorkbench.Instrument
