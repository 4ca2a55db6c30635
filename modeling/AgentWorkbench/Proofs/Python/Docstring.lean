import AgentWorkbench.Proofs.Text.Lines
import AgentWorkbench.Python.Literal
import Mathlib.Data.List.Forall2
import Mathlib.Data.List.Induction
import Mathlib.Order.Bounds.Basic

/-!
Docstrings. Cleaning one takes the margin off its lines after the first and drops the empty lines at
its ends; nothing but layout is lost, and a margin that is put in front of all of them changes
nothing.
-/
namespace AgentWorkbench.Python

open Text

/-! Tabs. -/

/-- The text of a line once each of its tabs is blanks up to the next column that is a multiple of
eight. -/
inductive Expanded : List Char → List Char → Prop
  | nil : Expanded [] []
  | char {line text : List Char} (h : Expanded line text) {c : Char} (plain : c ≠ '\t') :
      Expanded (line ++ [c]) (text ++ [c])
  | tab {line text : List Char} (h : Expanded line text) {pad : Nat} (pos : 0 < pad) (le : pad ≤ 8)
      (stop : 8 ∣ text.length + pad) : Expanded (line ++ ['\t']) (text ++ List.replicate pad ' ')

theorem expandTabs_append (column : Nat) (xs ys : List Char) :
    expandTabs column (xs ++ ys) =
      expandTabs column xs ++ expandTabs (column + (expandTabs column xs).length) ys := by
  induction xs generalizing column with
  | nil => rfl
  | cons c xs ih =>
      by_cases tab : c = '\t'
      · simp only [List.cons_append, expandTabs, if_pos tab, ih, List.append_assoc,
          List.length_append, List.length_replicate, Nat.add_assoc]
      · simp only [List.cons_append, expandTabs, if_neg tab, ih, List.length_cons, Nat.add_assoc,
          Nat.add_comm 1]

theorem expandTabs_tab (column : Nat) :
    expandTabs column ['\t'] = List.replicate (8 - column % 8) ' ' := by
  simp [expandTabs]

theorem expandTabs_char (column : Nat) {c : Char} (plain : c ≠ '\t') :
    expandTabs column [c] = [c] := by
  simp [expandTabs, plain]

theorem expanded_expandTabs (line : List Char) : Expanded line (expandTabs 0 line) := by
  induction line using List.reverseRecOn with
  | nil => exact .nil
  | append_singleton line c ih =>
      rw [expandTabs_append]
      by_cases tab : c = '\t'
      · subst tab
        rw [expandTabs_tab]
        exact .tab ih (by omega) (by omega) (by omega)
      · rw [expandTabs_char _ tab]
        exact .char ih tab

theorem expanded_iff {line text : List Char} : Expanded line text ↔ expandTabs 0 line = text := by
  refine ⟨fun h => ?_, fun h => h ▸ expanded_expandTabs line⟩
  induction h with
  | nil => rfl
  | char h plain ih => rw [expandTabs_append, ih, expandTabs_char _ plain]
  | @tab line text h pad pos le stop ih =>
      have width : 8 - (0 + text.length) % 8 = pad := by omega
      rw [expandTabs_append, ih, expandTabs_tab, width]

/-- Blanks in front move a line by as many columns. -/
theorem expandTabs_replicate (column n : Nat) (line : List Char) :
    expandTabs column (List.replicate n ' ' ++ line) =
      List.replicate n ' ' ++ expandTabs (column + n) line := by
  induction n generalizing column with
  | zero => rfl
  | succ n ih =>
      rw [List.replicate_succ, List.cons_append, expandTabs, if_neg (by decide), ih,
        List.cons_append, Nat.add_assoc, Nat.add_comm 1]

theorem expandTabs_of_not_mem {line : List Char} (plain : '\t' ∉ line) (column : Nat) :
    expandTabs column line = line := by
  induction line generalizing column with
  | nil => rfl
  | cons c line ih =>
      obtain ⟨ne, plain⟩ := List.ne_and_not_mem_of_not_mem_cons plain
      rw [expandTabs, if_neg ne.symm, ih plain]

/-- Eight columns further on tabs go as far. -/
theorem expandTabs_add_eight_mul (column k : Nat) (line : List Char) :
    expandTabs (column + 8 * k) line = expandTabs column line := by
  induction line generalizing column with
  | nil => rfl
  | cons c line ih =>
      have turn : (column + 8 * k) % 8 = column % 8 := Nat.add_mul_mod_self_left column 8 k
      have tabbed := ih (column + (8 - column % 8))
      have plain := ih (column + 1)
      rw [Nat.add_right_comm] at tabbed plain
      by_cases tab : c = '\t'
      · simp only [expandTabs, if_pos tab, turn, tabbed]
      · simp only [expandTabs, if_neg tab, plain]

/-- Expanding tabs puts nothing into a line but blanks. -/
theorem mem_expandTabs {c : Char} (ne : c ≠ ' ') {column : Nat} {line : List Char} :
    c ∈ expandTabs column line ↔ c ∈ line ∧ c ≠ '\t' := by
  induction line generalizing column with
  | nil => simp [expandTabs]
  | cons d line ih =>
      by_cases tab : d = '\t'
      · subst tab
        simp only [expandTabs, if_pos, List.mem_append, List.mem_replicate, ne, and_false, false_or,
          ih, List.mem_cons]
        grind
      · simp only [expandTabs, if_neg tab, List.mem_cons, ih]
        grind

/-! Lines without content. -/

/-- A line of blanks and tabs. -/
def Bare (line : List Char) : Prop := ∀ c ∈ line, c = ' ' ∨ c = '\t'

theorem hasContent_eq_false_iff {line : List Char} :
    hasContent line = false ↔ line = List.replicate line.length ' ' := by
  rw [List.eq_replicate_iff, hasContent, List.any_eq_false]
  simp

theorem hasContent_expandTabs {column : Nat} {line : List Char} :
    hasContent (expandTabs column line) = true ↔ ¬ Bare line := by
  have solid : hasContent (expandTabs column line) = true ↔ ∃ c ∈ line, c ≠ ' ' ∧ c ≠ '\t' := by
    simp only [hasContent, List.any_eq_true, decide_eq_true_eq]
    constructor
    · rintro ⟨c, mem, ne⟩
      obtain ⟨mem, plain⟩ := (mem_expandTabs ne).mp mem
      exact ⟨c, mem, ne, plain⟩
    · rintro ⟨c, mem, ne, plain⟩
      exact ⟨c, (mem_expandTabs ne).mpr ⟨mem, plain⟩, ne⟩
  rw [solid, Bare]
  push Not
  rfl

/-- The text of a docstring without its layout. -/
def content (cs : List Char) : List Char := cs.filter fun c => c ≠ ' ' && c ≠ '\t' && c ≠ '\n'

@[simp] theorem content_nil : content [] = [] := rfl

@[simp] theorem content_append (xs ys : List Char) :
    content (xs ++ ys) = content xs ++ content ys :=
  List.filter_append ..

@[simp] theorem content_blanks (n : Nat) : content (List.replicate n ' ') = [] := by
  rw [content, List.filter_replicate]
  rfl

theorem content_expandTabs (column : Nat) (line : List Char) :
    content (expandTabs column line) = content line := by
  induction line generalizing column with
  | nil => rfl
  | cons c line ih =>
      by_cases tab : c = '\t'
      · subst tab
        rw [expandTabs, if_pos rfl, content_append, content_blanks, ih]
        rfl
      · rw [expandTabs, if_neg tab, ← List.singleton_append, content_append, ih,
          ← content_append, List.singleton_append]

theorem content_join (parts : List (List Char)) :
    content (join ['\n'] parts) = parts.flatMap content := by
  induction parts with
  | nil => rfl
  | cons part rest ih =>
      cases rest with
      | nil => simp [join]
      | cons next rest =>
          rw [join, content_append, content_append, ih, List.flatMap_cons]
          · exact congrArg (· ++ _) (List.append_nil _)
          · exact List.cons_ne_nil _ _

theorem content_flatMap_splitOn (cs : List Char) :
    (splitOn '\n' cs).flatMap content = content cs := by
  rw [← content_join, join_splitOn]

/-! Indentation. -/

theorem eq_indent_append (line : List Char) :
    line = List.replicate (indentWidth line) ' ' ++ line.dropWhile (· = ' ') := by
  have blanks : line.takeWhile (· = ' ') = List.replicate (indentWidth line) ' ' :=
    List.eq_replicate_iff.mpr ⟨rfl, fun c mem => by simpa using List.mem_takeWhile_imp mem⟩
  rw [← blanks, List.takeWhile_append_dropWhile]

theorem eq_replicate_append_drop {line : List Char} {n : Nat} (le : n ≤ indentWidth line) :
    line = List.replicate n ' ' ++ line.drop n := by
  have cut := eq_indent_append line
  obtain ⟨k, width⟩ := Nat.exists_eq_add_of_le le
  rw [width, List.replicate_add, List.append_assoc] at cut
  conv_rhs => rw [cut]
  rw [List.drop_left' List.length_replicate]
  exact cut

theorem content_drop {line : List Char} {n : Nat}
    (le : hasContent line = true → n ≤ indentWidth line) :
    content (line.drop n) = content line := by
  cases solid : hasContent line with
  | true =>
      conv_rhs => rw [eq_replicate_append_drop (le solid)]
      rw [content_append, content_blanks, List.nil_append]
  | false =>
      rw [hasContent_eq_false_iff.mp solid, List.drop_replicate, content_blanks, content_blanks]

theorem margin_le {lines : List (List Char)} {line : List Char} (mem : line ∈ lines)
    (solid : hasContent line = true) : margin lines ≤ indentWidth line := by
  have mem : indentWidth line ∈ (lines.filter hasContent).map indentWidth :=
    List.mem_map_of_mem (List.mem_filter.mpr ⟨mem, solid⟩)
  rw [margin]
  cases least : ((lines.filter hasContent).map indentWidth).min? with
  | none => exact Nat.zero_le _
  | some m => exact (List.min?_eq_some_iff.mp least).2 _ mem

theorem exists_indentWidth_eq_margin {lines : List (List Char)}
    (solid : ∃ line ∈ lines, hasContent line = true) :
    ∃ line ∈ lines, hasContent line = true ∧ indentWidth line = margin lines := by
  obtain ⟨line, mem, solid⟩ := solid
  have mem : indentWidth line ∈ (lines.filter hasContent).map indentWidth :=
    List.mem_map_of_mem (List.mem_filter.mpr ⟨mem, solid⟩)
  rw [margin]
  cases least : ((lines.filter hasContent).map indentWidth).min? with
  | none => rw [List.min?_eq_none_iff.mp least] at mem; cases mem
  | some m =>
      obtain ⟨other, mem, width⟩ := List.mem_map.mp (List.min?_eq_some_iff.mp least).1
      obtain ⟨mem, solid⟩ := List.mem_filter.mp mem
      exact ⟨other, mem, solid, width⟩

theorem indentWidth_replicate (n : Nat) (line : List Char) :
    indentWidth (List.replicate n ' ' ++ line) = n + indentWidth line := by
  rw [indentWidth, List.takeWhile_append_of_pos (by simp), List.length_append,
    List.length_replicate, indentWidth]

theorem hasContent_replicate (n : Nat) (line : List Char) :
    hasContent (List.replicate n ' ' ++ line) = hasContent line := by
  rw [hasContent, List.any_append, hasContent]
  simp

/-- The margin of lines grows by what is put in front of all of them. -/
theorem margin_replicate (n : Nat) {lines : List (List Char)}
    (solid : ∃ line ∈ lines, hasContent line = true) :
    margin (lines.map (List.replicate n ' ' ++ ·)) = n + margin lines := by
  apply Nat.le_antisymm
  · obtain ⟨line, mem, solid, width⟩ := exists_indentWidth_eq_margin solid
    have le := margin_le (List.mem_map_of_mem (f := (List.replicate n ' ' ++ ·)) mem)
      ((hasContent_replicate n line).trans solid)
    rwa [indentWidth_replicate, width] at le
  · obtain ⟨line, mem, solid⟩ := solid
    have moved : ∃ line ∈ lines.map (List.replicate n ' ' ++ ·), hasContent line = true :=
      ⟨_, List.mem_map_of_mem mem, (hasContent_replicate n line).trans solid⟩
    obtain ⟨_, mem, solid, width⟩ := exists_indentWidth_eq_margin moved
    obtain ⟨other, there, rfl⟩ := List.mem_map.mp mem
    rw [← width, indentWidth_replicate]
    exact Nat.add_le_add_left (margin_le there ((hasContent_replicate n other).symm.trans solid)) n

/-! Empty lines at the ends. -/

theorem dropWhile_isEmpty_eq (lines : List (List Char)) :
    lines.dropWhile List.isEmpty = dropEmptyEnds lines ++
      ((lines.dropWhile List.isEmpty).reverse.takeWhile List.isEmpty).reverse := by
  rw [dropEmptyEnds, ← List.reverse_append, List.takeWhile_append_dropWhile, List.reverse_reverse]

theorem exists_dropEmptyEnds (lines : List (List Char)) :
    ∃ front rear, lines = front ++ dropEmptyEnds lines ++ rear ∧
      ∀ line ∈ front ++ rear, line = [] := by
  have empty {lines : List (List Char)} : ∀ line ∈ lines.takeWhile List.isEmpty, line = [] :=
    fun line mem => List.isEmpty_iff.mp (List.mem_takeWhile_imp mem)
  refine ⟨lines.takeWhile List.isEmpty,
    ((lines.dropWhile List.isEmpty).reverse.takeWhile List.isEmpty).reverse, ?_, fun line mem => ?_⟩
  · rw [List.append_assoc, ← dropWhile_isEmpty_eq, List.takeWhile_append_dropWhile]
  · obtain mem | mem := List.mem_append.mp mem
    · exact empty line mem
    · exact empty line (List.mem_reverse.mp mem)

theorem head?_dropWhile_ne {α : Type} {p : α → Bool} {a : α} (dropped : p a = true) (as : List α) :
    (as.dropWhile p).head? ≠ some a := by
  intro h
  have stop := List.head?_dropWhile_not p as
  rw [h] at stop
  simp [dropped] at stop

theorem head?_dropEmptyEnds (lines : List (List Char)) :
    (dropEmptyEnds lines).head? ≠ some [] := by
  intro h
  refine head?_dropWhile_ne List.isEmpty_nil lines ?_
  rw [dropWhile_isEmpty_eq, List.head?_append, h]
  rfl

theorem getLast?_dropEmptyEnds (lines : List (List Char)) :
    (dropEmptyEnds lines).getLast? ≠ some [] := by
  rw [dropEmptyEnds, List.getLast?_reverse]
  exact head?_dropWhile_ne List.isEmpty_nil _

theorem content_dropEmptyEnds (lines : List (List Char)) :
    (dropEmptyEnds lines).flatMap content = lines.flatMap content := by
  obtain ⟨front, rear, cut, empty⟩ := exists_dropEmptyEnds lines
  obtain ⟨front_empty, rear_empty⟩ := List.forall_mem_append.mp empty
  have nothing {lines : List (List Char)} (h : ∀ line ∈ lines, line = []) :
      lines.flatMap content = [] :=
    List.flatMap_eq_nil_iff.mpr fun line mem => by rw [h line mem, content_nil]
  conv_rhs => rw [cut]
  rw [List.flatMap_append, List.flatMap_append, nothing front_empty, nothing rear_empty,
    List.nil_append, List.append_nil]

/-! The lines of a docstring. -/

/-- The lines of a docstring before the empty ones at the ends are dropped: the first one, and those
after it. -/
def dedented (first : List Char) (others : List (List Char)) : List (List Char) :=
  (expandTabs 0 first).dropWhile (· = ' ') ::
    others.map fun line => (expandTabs 0 line).drop (margin (others.map (expandTabs 0)))

theorem cleandoc_eq {doc first : List Char} {others : List (List Char)}
    (cut : splitOn '\n' doc = first :: others) :
    cleandoc doc = join ['\n'] (dropEmptyEnds (dedented first others)) := by
  rw [cleandoc, cut, List.map_cons, dedented]
  simp only [List.map_map, Function.comp_def]

theorem dedented_unbroken {first : List Char} {others : List (List Char)}
    (unbroken : ∀ line ∈ first :: others, '\n' ∉ line) :
    ∀ line ∈ dedented first others, '\n' ∉ line := by
  have expanded {line : List Char} (mem : line ∈ first :: others) : '\n' ∉ expandTabs 0 line :=
    fun broken => unbroken line mem ((mem_expandTabs (by decide)).mp broken).1
  refine List.forall_mem_cons.mpr ⟨fun broken => ?_, fun rest mem broken => ?_⟩
  · exact expanded List.mem_cons_self ((List.dropWhile_sublist _).subset broken)
  · obtain ⟨line, there, rfl⟩ := List.mem_map.mp mem
    exact expanded (List.mem_cons_of_mem _ there) (List.mem_of_mem_drop broken)

theorem content_dedented (first : List Char) (others : List (List Char)) :
    (dedented first others).flatMap content = (first :: others).flatMap content := by
  rw [dedented, List.flatMap_cons, List.flatMap_cons, List.flatMap_map]
  have first_kept : content ((expandTabs 0 first).dropWhile (· = ' ')) = content first := by
    rw [← content_expandTabs 0 first]
    conv_rhs => rw [eq_indent_append (expandTabs 0 first)]
    rw [content_append, content_blanks, List.nil_append]
  rw [first_kept]
  refine congrArg _ (List.flatMap_congr fun line mem => ?_)
  rw [content_drop fun solid => margin_le (List.mem_map_of_mem mem) solid, content_expandTabs]

/-- The line is indented by so many blanks once its tabs are expanded. -/
def Indented (line : List Char) (n : Nat) : Prop :=
  ∃ text, Expanded line (List.replicate n ' ' ++ text) ∧ text.head? ≠ some ' '

theorem indented_iff {line : List Char} {n : Nat} :
    Indented line n ↔ indentWidth (expandTabs 0 line) = n := by
  constructor
  · rintro ⟨text, h, ne⟩
    have flush : indentWidth text = 0 := by
      cases text with
      | nil => rfl
      | cons c text =>
          have ne : c ≠ ' ' := by simpa using ne
          simp [indentWidth, ne]
    rw [expanded_iff.mp h, indentWidth_replicate, flush, Nat.add_zero]
  · rintro rfl
    exact ⟨_, expanded_iff.mpr (eq_indent_append _), head?_dropWhile_ne (by simp) _⟩

/-- What the margin leaves of a line: all that follows it where the line has text, and where it has
none the blanks by which it is longer. -/
inductive Dedented (margin : Nat) (line : List Char) : List Char → Prop
  | text {rest : List Char} (solid : ¬ Bare line)
      (h : Expanded line (List.replicate margin ' ' ++ rest)) : Dedented margin line rest
  | blank {n : Nat} (bare : Bare line) (h : Expanded line (List.replicate n ' ')) :
      Dedented margin line (List.replicate (n - margin) ' ')

theorem dedented_drop {line : List Char} {n : Nat}
    (le : ¬ Bare line → n ≤ indentWidth (expandTabs 0 line)) :
    Dedented n line ((expandTabs 0 line).drop n) := by
  by_cases bare : Bare line
  · have blank : hasContent (expandTabs 0 line) = false :=
      Bool.eq_false_iff.mpr fun solid => hasContent_expandTabs.mp solid bare
    obtain ⟨width, blanks⟩ : ∃ width, expandTabs 0 line = List.replicate width ' ' :=
      ⟨_, hasContent_eq_false_iff.mp blank⟩
    rw [blanks, List.drop_replicate]
    exact .blank bare (expanded_iff.mpr blanks)
  · exact .text bare (expanded_iff.mpr (eq_replicate_append_drop (le bare)))

/-- The least indentation of the lines that have text. -/
structure IsMargin (lines : List (List Char)) (margin : Nat) : Prop where
  least : (∃ line ∈ lines, ¬ Bare line) →
    IsLeast {n | ∃ line ∈ lines, ¬ Bare line ∧ Indented line n} margin
  none : (∀ line ∈ lines, Bare line) → margin = 0

theorem isMargin_margin (lines : List (List Char)) :
    IsMargin lines (margin (lines.map (expandTabs 0))) where
  least := by
    rintro ⟨line, mem, solid⟩
    constructor
    · obtain ⟨_, mem, solid, width⟩ := exists_indentWidth_eq_margin
        ⟨_, List.mem_map_of_mem mem, hasContent_expandTabs.mpr solid⟩
      obtain ⟨least, there, rfl⟩ := List.mem_map.mp mem
      exact ⟨least, there, hasContent_expandTabs.mp solid, indented_iff.mpr width⟩
    · rintro n ⟨other, mem, solid, indented⟩
      rw [← indented_iff.mp indented]
      exact margin_le (List.mem_map_of_mem mem) (hasContent_expandTabs.mpr solid)
  none bare := by
    have none_solid : (lines.map (expandTabs 0)).filter hasContent = [] := by
      refine List.filter_eq_nil_iff.mpr fun _ mem solid => ?_
      obtain ⟨line, there, rfl⟩ := List.mem_map.mp mem
      exact hasContent_expandTabs.mp solid (bare line there)
    rw [margin, none_solid]
    rfl

/-- A docstring's first line without the blanks in front of it and its other lines without the
margin, from which the empty lines at the ends are dropped. -/
structure Cleaned (doc cleaned : List Char) (margin : Nat) : Prop where
  least : IsMargin (splitOn '\n' doc).tail margin
  lines : ∃ line first others front rear,
    (splitOn '\n' doc).head? = some line ∧
    (∃ n, Expanded line (List.replicate n ' ' ++ first)) ∧ first.head? ≠ some ' ' ∧
    List.Forall₂ (Dedented margin) (splitOn '\n' doc).tail others ∧
    first :: others = front ++ splitOn '\n' cleaned ++ rear ∧ ∀ line ∈ front ++ rear, line = []

theorem exists_splitOn (doc : List Char) : ∃ first others, splitOn '\n' doc = first :: others ∧
    ∀ line ∈ first :: others, '\n' ∉ line := by
  cases cut : splitOn '\n' doc with
  | nil => exact absurd cut (splitOn_ne_nil '\n' doc)
  | cons first others =>
      exact ⟨first, others, rfl, fun line mem => unbroken_of_mem_splitOn (cut ▸ mem)⟩

theorem dropEmptyEnds_subset (lines : List (List Char)) : dropEmptyEnds lines ⊆ lines := by
  intro line mem
  obtain ⟨front, rear, cut, -⟩ := exists_dropEmptyEnds lines
  rw [cut]
  exact List.mem_append_left _ (List.mem_append_right _ mem)

/-- The lines of a cleaned docstring, unless it is empty. -/
theorem splitOn_cleandoc {doc first : List Char} {others : List (List Char)}
    (cut : splitOn '\n' doc = first :: others) (unbroken : ∀ line ∈ first :: others, '\n' ∉ line)
    (ne : dropEmptyEnds (dedented first others) ≠ []) :
    splitOn '\n' (cleandoc doc) = dropEmptyEnds (dedented first others) := by
  rw [cleandoc_eq cut]
  exact splitOn_join ne fun line mem =>
    dedented_unbroken unbroken line (dropEmptyEnds_subset _ mem)

theorem cleaned_cleandoc (doc : List Char) : ∃ margin, Cleaned doc (cleandoc doc) margin := by
  obtain ⟨first, others, cut, unbroken⟩ := exists_splitOn doc
  obtain ⟨front, rear, ends, empty⟩ := exists_dropEmptyEnds (dedented first others)
  refine ⟨margin (others.map (expandTabs 0)), ?_, first, (expandTabs 0 first).dropWhile (· = ' '),
    others.map fun line => (expandTabs 0 line).drop (margin (others.map (expandTabs 0))), ?_⟩
  · rw [cut]
    exact isMargin_margin others
  have others_dedented : List.Forall₂ (Dedented (margin (others.map (expandTabs 0)))) others
      (others.map fun line => (expandTabs 0 line).drop (margin (others.map (expandTabs 0)))) := by
    refine List.forall₂_map_right_iff.mpr (List.forall₂_same.mpr fun line mem => ?_)
    exact dedented_drop fun solid =>
      margin_le (List.mem_map_of_mem mem) (hasContent_expandTabs.mpr solid)
  have kept : ∃ front rear, dedented first others = front ++ splitOn '\n' (cleandoc doc) ++ rear ∧
      ∀ line ∈ front ++ rear, line = [] := by
    by_cases ne : dropEmptyEnds (dedented first others) = []
    · rw [ne, List.append_nil] at ends
      rw [← ends] at empty
      obtain ⟨first_empty, others_empty⟩ := List.forall_mem_cons.mp empty
      refine ⟨[], _, ?_, others_empty⟩
      rw [cleandoc_eq cut, ne, dedented, first_empty]
      rfl
    · rw [splitOn_cleandoc cut unbroken ne]
      exact ⟨front, rear, ends, empty⟩
  obtain ⟨front, rear, kept, empty⟩ := kept
  rw [cut]
  exact ⟨front, rear, rfl, ⟨_, expanded_iff.mpr (eq_indent_append _)⟩,
    head?_dropWhile_ne (by simp) _, others_dedented, kept, empty⟩

/-! Docstrings further in. -/

/-- The docstring with so many blanks in front of every line after the first. -/
def nested (n : Nat) (doc : List Char) : List Char :=
  doc.flatMap fun c => if c = '\n' then '\n' :: List.replicate n ' ' else [c]

theorem splitOn_nested {doc first : List Char} {others : List (List Char)} (n : Nat)
    (cut : splitOn '\n' doc = first :: others) :
    splitOn '\n' (nested n doc) = first :: others.map (List.replicate n ' ' ++ ·) := by
  induction doc generalizing first others with
  | nil => cases cut; rfl
  | cons c doc ih =>
      obtain ⟨next, more, cut', -⟩ := exists_splitOn doc
      have ih := ih cut'
      by_cases newline : c = '\n'
      · subst newline
        have clean : '\n' ∉ List.replicate n ' ' := fun mem =>
          absurd (List.eq_of_mem_replicate mem) (by decide)
        rw [splitOn, if_pos rfl, cut'] at cut
        cases cut
        rw [nested, List.flatMap_cons, if_pos rfl, List.cons_append, splitOn, if_pos rfl]
        exact congrArg _ (splitOn_append_clean clean ih)
      · rw [splitOn, if_neg newline, cut'] at cut
        cases cut
        rw [nested] at ih ⊢
        rw [List.flatMap_cons, if_neg newline, List.singleton_append, splitOn, if_neg newline, ih]

theorem expandTabs_nested {n : Nat} {line : List Char} (stop : '\t' ∈ line → 8 ∣ n) :
    expandTabs 0 (List.replicate n ' ' ++ line) = List.replicate n ' ' ++ expandTabs 0 line := by
  rw [expandTabs_replicate]
  by_cases tab : '\t' ∈ line
  · obtain ⟨k, rfl⟩ := stop tab
    rw [expandTabs_add_eight_mul]
  · rw [expandTabs_of_not_mem tab, expandTabs_of_not_mem tab]

theorem dedented_nested {n : Nat} {first : List Char} {others : List (List Char)}
    (stop : ∀ line ∈ others, '\t' ∈ line → 8 ∣ n) (solid : ∃ line ∈ others, ¬ Bare line) :
    dedented first (others.map (List.replicate n ' ' ++ ·)) = dedented first others := by
  have expanded : (others.map (List.replicate n ' ' ++ ·)).map (expandTabs 0) =
      (others.map (expandTabs 0)).map (List.replicate n ' ' ++ ·) := by
    rw [List.map_map, List.map_map]
    exact List.map_congr_left fun line mem => expandTabs_nested (stop line mem)
  obtain ⟨line, mem, solid⟩ := solid
  have wider := margin_replicate n
    ⟨_, List.mem_map_of_mem (f := expandTabs 0) mem, hasContent_expandTabs.mpr solid⟩
  rw [dedented, dedented, expanded, wider, List.map_map]
  refine congrArg _ (List.map_congr_left fun line mem => ?_)
  rw [Function.comp_apply, expandTabs_nested (stop line mem), ← List.drop_drop,
    List.drop_left' List.length_replicate]

theorem cleandoc_nested {n : Nat} {doc : List Char} (stop : '\t' ∈ doc → 8 ∣ n)
    (solid : ∃ line ∈ (splitOn '\n' doc).tail, ¬ Bare line) :
    cleandoc (nested n doc) = cleandoc doc := by
  obtain ⟨first, others, cut, -⟩ := exists_splitOn doc
  rw [cut] at solid
  have within {line : List Char} (mem : line ∈ others) (tab : '\t' ∈ line) : '\t' ∈ doc := by
    rw [← join_splitOn '\n' doc, cut]
    exact mem_join (List.mem_cons_of_mem _ mem) tab
  rw [cleandoc_eq cut, cleandoc_eq (splitOn_nested n cut),
    dedented_nested (fun line mem tab => stop (within mem tab)) solid]

/-- Cleaning a docstring loses nothing but layout, leaves no empty line at an end, takes one margin
off the lines after the first, and gives the same for the docstring further in. -/
theorem cleandoc_normalizes_layout (doc : List Char) :
    content (cleandoc doc) = content doc ∧
    (cleandoc doc ≠ [] → (splitOn '\n' (cleandoc doc)).head? ≠ some [] ∧
      (splitOn '\n' (cleandoc doc)).getLast? ≠ some []) ∧
    (∃ margin, Cleaned doc (cleandoc doc) margin) ∧
    ∀ n, ('\t' ∈ doc → 8 ∣ n) → (∃ line ∈ (splitOn '\n' doc).tail, ¬ Bare line) →
      cleandoc (nested n doc) = cleandoc doc := by
  obtain ⟨first, others, cut, unbroken⟩ := exists_splitOn doc
  refine ⟨?_, fun ne => ?_, cleaned_cleandoc doc, fun n => cleandoc_nested⟩
  · rw [cleandoc_eq cut, content_join, content_dropEmptyEnds, content_dedented, ← cut,
      content_flatMap_splitOn]
  · have lines_ne : dropEmptyEnds (dedented first others) ≠ [] := fun none =>
      ne (by rw [cleandoc_eq cut, none]; rfl)
    rw [splitOn_cleandoc cut unbroken lines_ne]
    exact ⟨head?_dropEmptyEnds _, getLast?_dropEmptyEnds _⟩

theorem cleandoc_normalizes_layout_summary :
    cleandoc "Summary.\n\n    Details.\n\tdeep\n  ".toList =
        "Summary.\n\nDetails.\n    deep".toList ∧
      cleandoc (nested 8 "Summary.\n\n    Details.\n\tdeep\n  ".toList) =
        "Summary.\n\nDetails.\n    deep".toList := by
  have cleaned : cleandoc "Summary.\n\n    Details.\n\tdeep\n  ".toList =
      "Summary.\n\nDetails.\n    deep".toList := by decide
  have solid : ∃ line ∈ (splitOn '\n' "Summary.\n\n    Details.\n\tdeep\n  ".toList).tail,
      ¬ Bare line := by
    refine ⟨"    Details.".toList, by decide, fun bare => ?_⟩
    exact absurd (bare 'D' (by decide)) (by decide)
  exact ⟨cleaned, ((cleandoc_normalizes_layout _).2.2.2 8 (fun _ => by decide) solid).trans cleaned⟩

end AgentWorkbench.Python
