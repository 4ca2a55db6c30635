import AgentWorkbench.Proofs.Instrument.Fitting
import AgentWorkbench.Proofs.Instrument.Idempotence
import AgentWorkbench.Proofs.Instrument.Spelling
import Mathlib.Data.List.Nodup

/-!
What instrumenting adds to a text, and how often. Each step leaves its text alone or inserts lines
of its own between two lines of it. So the lines of the source stay as they are, and of the imports,
the head of the routine and the mark of the hook there are as many as in the source, or one where
the source has none.
-/
namespace AgentWorkbench.Instrument

open Text

/-- From the first text to the second, nothing or a block of these lines and of breaks is inserted,
at a line boundary. -/
def InsertsLines (own : List (List Char)) (source text : List Char) : Prop :=
  text = source ∨ ∃ i : Insertion, i.Into source ∧ text = i.text ∧
    ∀ line ∈ splitOn '\n' i.block, line = [] ∨ line ∈ own

theorem insertsLines_insertOr {own : List (List Char)} {source : List Char}
    {insertion : Option Insertion} (into : ∀ {i}, insertion = some i → i.Into source)
    (lines : ∀ {i}, insertion = some i → ∀ line ∈ splitOn '\n' i.block, line = [] ∨ line ∈ own) :
    InsertsLines own source (insertOr source insertion) := by
  cases made : insertion with
  | none => exact .inl rfl
  | some i => exact .inr ⟨i, into made, rfl, lines made⟩

/-- The block is the missing imports, below a break of its own or not. -/
theorem importsInsertion?_lines {source : List Char} {i : Insertion}
    (h : importsInsertion? source = some i) :
    ∃ gap, (gap = [] ∨ gap = [[]]) ∧
      splitOn '\n' i.block = gap ++ (missingImports source).map String.toList ++ [[]] := by
  rw [importsInsertion?] at h
  split at h
  · contradiction
  · cases h
    have clean : ∀ line ∈ (missingImports source).map String.toList, '\n' ∉ line := by
      intro line h
      obtain ⟨m, absent, rfl⟩ := List.mem_map.mp h
      exact unbroken_of_mem_requiredImports (List.mem_of_mem_filter absent)
    have lines := splitOn_flatMap_break clean []
    rw [List.append_nil, List.flatMap_map, splitOn_last List.not_mem_nil] at lines
    dsimp only
    rw [closingBreak]
    split
    · exact ⟨[], .inl rfl, by rw [List.nil_append, lines, List.nil_append]⟩
    · refine ⟨[[]], .inr rfl, ?_⟩
      rw [List.singleton_append, splitOn_break, lines, List.singleton_append, List.cons_append]

theorem insertsLines_injectImports (source : List Char) :
    InsertsLines (requiredImports.map String.toList) source (injectImports source) := by
  refine insertsLines_insertOr importsInsertion?_into fun made line h => ?_
  obtain ⟨gap, empty, lines⟩ := importsInsertion?_lines made
  rw [lines, List.mem_append, List.mem_append, List.mem_singleton] at h
  obtain (inside | missing) | rfl := h
  · obtain rfl | rfl := empty
    · contradiction
    · exact .inl (List.mem_singleton.mp inside)
  · obtain ⟨m, absent, rfl⟩ := List.mem_map.mp missing
    exact .inr (List.mem_map_of_mem (List.mem_of_mem_filter absent))
  · exact .inl rfl

theorem lines_append_gap {cs line : List Char} (h : line ∈ splitOn '\n' (cs ++ ['\n', '\n'])) :
    line = [] ∨ line ∈ splitOn '\n' cs := by
  rw [splitOn_append_tail cs (.break _), List.mem_append] at h
  simpa [linesAfter, splitOn, or_comm] using h

theorem lines_routineGap_append {source cs line : List Char}
    (h : line ∈ splitOn '\n' (routineGap source ++ cs)) : line = [] ∨ line ∈ splitOn '\n' cs := by
  rw [routineGap] at h
  split at h
  · simpa [splitOn] using h
  · simpa [splitOn] using h

theorem insertsLines_injectRoutine (source : List Char) :
    InsertsLines (splitOn '\n' routine.toList) source (injectRoutine source) := by
  refine insertsLines_insertOr routineInsertion?_into fun {i} made line => ?_
  rw [routineInsertion?] at made
  split at made
  · contradiction
  · dsimp only at made
    split at made
    · cases made
      exact lines_append_gap
    · cases made
      exact lines_routineGap_append

theorem isIndent_ne_break {c : Char} (h : isIndent c = true) : c ≠ '\n' := by
  rintro rfl
  contradiction

theorem bodyIndent_isIndent {indent : List Char} (indented : ∀ c ∈ indent, isIndent c = true)
    (below : List Char) : ∀ c ∈ bodyIndent indent below, isIndent c = true := by
  rw [bodyIndent]
  split
  · exact fun c => List.mem_takeWhile_imp
  · intro c h
    obtain h | h := List.mem_append.mp h
    · exact indented c h
    · obtain rfl : c = ' ' := by simpa using h
      rfl

theorem GuardText.indented {indent text : List Char} (h : GuardText indent text) :
    ∀ c ∈ indent, isIndent c = true := by
  obtain ⟨indented, -, -, -, -⟩ := h
  exact indented

theorem unbroken_hookStatements :
    ∀ statement ∈ hookStatements.map String.toList, '\n' ∉ statement := by
  decide +kernel

/-- The lines of the hook with this indentation. -/
def hookText (indent : List Char) : List (List Char) :=
  (hookLines (String.ofList indent)).map String.toList

theorem hookText_eq (indent : List Char) :
    hookText indent = (hookStatements.map String.toList).map (indent ++ ·) := by
  simp [hookText, hookLines, String.toList_append]

theorem unbroken_hookText {indent : List Char} (indented : ∀ c ∈ indent, isIndent c = true) :
    ∀ line ∈ hookText indent, '\n' ∉ line := by
  rw [hookText_eq]
  intro line h broken
  obtain ⟨statement, fixed, rfl⟩ := List.mem_map.mp h
  obtain inside | inside := List.mem_append.mp broken
  · exact isIndent_ne_break (indented _ inside) rfl
  · exact unbroken_hookStatements statement fixed inside

theorem hookInsertion?_lines {source : List Char} {i : Insertion}
    (h : hookInsertion? source = some i) :
    ∃ indent, (∀ c ∈ indent, isIndent c = true) ∧
      splitOn '\n' i.block = [] :: hookText indent := by
  obtain ⟨-, before, g, first, -, rfl⟩ := hookInsertion?_eq_some_iff.mp h
  have indented := bodyIndent_isIndent first.form.indented (g.after.dropWhile (· ≠ '\n'))
  have lines := linesAfter_flatMap_break (unbroken_hookText indented)
  rw [hookText, List.flatMap_map] at lines
  have cut := splitOn_line_tail List.not_mem_nil
    (lineTail_flatMap (fun line : String => line.toList) (hookBelow g))
  exact ⟨_, indented, cut.trans (congrArg _ lines)⟩

theorem insertsLines_injectHook (source : List Char) :
    ∃ indent, (∀ c ∈ indent, isIndent c = true) ∧
      InsertsLines (hookText indent) source (injectHook source) := by
  rw [injectHook]
  cases made : hookInsertion? source with
  | none => exact ⟨[], List.forall_mem_nil _, .inl rfl⟩
  | some i =>
    obtain ⟨indent, indented, lines⟩ := hookInsertion?_lines made
    refine ⟨indent, indented, .inr ⟨i, hookInsertion?_into made, rfl, fun line h => ?_⟩⟩
    rwa [lines, List.mem_cons] at h

theorem lines_sublist_insertOr {source : List Char} {insertion : Option Insertion}
    (into : ∀ {i}, insertion = some i → i.Into source)
    (fits : ∀ {i}, insertion = some i → i.Fits) :
    (splitOn '\n' source).Sublist (splitOn '\n' (insertOr source insertion)) := by
  cases made : insertion with
  | none => exact .refl _
  | some i =>
    have same : i.source = source := (into made).source_eq
    rw [← same]
    exact (fits made).lines_sublist

/-- How often the block of an insertion holds a pattern, if one is made. -/
def blockOccurrences (pat : List Char) (insertion : Option Insertion) : Nat :=
  (insertion.map fun i => occurrences pat i.block).getD 0

theorem occurrences_insertOr {source pat : List Char} {insertion : Option Insertion}
    (into : ∀ {i}, insertion = some i → i.Into source)
    (fits : ∀ {i}, insertion = some i → i.Fits) (unbroken : '\n' ∉ pat) (ne : pat ≠ []) :
    occurrences pat (insertOr source insertion) =
      occurrences pat source + blockOccurrences pat insertion := by
  cases made : insertion with
  | none => rfl
  | some i =>
    have same : i.source = source := (into made).source_eq
    rw [← same]
    exact (fits made).occurrences_text unbroken ne

theorem occurrences_flatMap_break {pat : List Char} (unbroken : '\n' ∉ pat) (ne : pat ≠ [])
    (lines : List (List Char)) :
    occurrences pat (lines.flatMap (· ++ ['\n'])) = (lines.map (occurrences pat)).sum := by
  induction lines with
  | nil => exact occurrences_nil ne
  | cons line lines ih =>
      have seam : LineBoundary line ('\n' :: lines.flatMap (· ++ ['\n'])) := .inr (.break _)
      rw [List.flatMap_cons, List.append_assoc, List.singleton_append,
        seam.occurrences_append unbroken ne, occurrences_break _ unbroken ne, ih, List.map_cons,
        List.sum_cons]

set_option maxRecDepth 100000 in
theorem routineLines_marks : ∃ lines, Spelled routineLines lines ∧
    (lines.map (occurrences routineSignature.toList)).sum = 1 ∧
    (lines.map (occurrences hookMarker.toList)).sum = 0 ∧
    ∀ m ∈ requiredImports, (lines.map (occurrences m.toList)).sum = 0 := by
  apply Exists.intro
  apply And.intro
  · dsimp only [routineLines]
    repeat' first | exact .nil | apply Spelled.text | apply Spelled.parts
  · decide +kernel

/-- The routine has its head once, and neither the mark of the hook nor an import. -/
theorem occurrences_routine : occurrences routineSignature.toList routine.toList = 1 ∧
    occurrences hookMarker.toList routine.toList = 0 ∧
    ∀ m ∈ requiredImports, occurrences m.toList routine.toList = 0 := by
  obtain ⟨lines, spelled, signature, marker, imports⟩ := routineLines_marks
  have text : routine.toList = lines.flatMap (· ++ ['\n']) := by
    rw [toList_routine, ← spelled.map_toList, List.flatMap_map]
  refine ⟨?_, ?_, fun m required => ?_⟩
  · rw [text, occurrences_flatMap_break (by decide) (by decide), signature]
  · rw [text, occurrences_flatMap_break (by decide) (by decide), marker]
  · have unbroken := unbroken_of_mem_requiredImports required
    have ne : m.toList ≠ [] := by
      revert m
      decide
    rw [text, occurrences_flatMap_break unbroken ne, imports m required]

theorem blockOccurrences_imports {pat : List Char} (unbroken : '\n' ∉ pat) (ne : pat ≠ [])
    (source : List Char) :
    blockOccurrences pat (importsInsertion? source) =
      ((missingImports source).map fun m => occurrences pat m.toList).sum := by
  cases made : importsInsertion? source with
  | none =>
    rw [importsInsertion?] at made
    split at made
    · next complete => rw [List.isEmpty_iff.mp complete]; rfl
    · contradiction
  | some i =>
    obtain ⟨gap, empty, lines⟩ := importsInsertion?_lines made
    have no_gap : (gap.map (occurrences pat)).sum = 0 := by
      obtain rfl | rfl := empty
      · rfl
      · simp [occurrences_nil ne]
    have block : occurrences pat i.block = _ := occurrences_eq_sum unbroken ne i.block
    rw [lines, List.map_append, List.map_append, List.sum_append, List.sum_append, no_gap,
      List.map_map, List.map_singleton, List.sum_singleton, occurrences_nil ne] at block
    simpa [blockOccurrences, Function.comp_def] using block

theorem occurrences_append_gap {pat : List Char} (unbroken : '\n' ∉ pat) (ne : pat ≠ [])
    (cs : List Char) : occurrences pat (cs ++ ['\n', '\n']) = occurrences pat cs := by
  have seam : LineBoundary cs ['\n', '\n'] := .inr (.break _)
  rw [seam.occurrences_append unbroken ne, occurrences_break _ unbroken ne,
    occurrences_break _ unbroken ne, occurrences_nil ne, Nat.add_zero]

theorem occurrences_routineGap_append {pat : List Char} (unbroken : '\n' ∉ pat) (ne : pat ≠ [])
    (source cs : List Char) :
    occurrences pat (routineGap source ++ cs) = occurrences pat cs := by
  rw [routineGap]
  split
  · exact occurrences_break cs unbroken ne
  · exact (occurrences_break _ unbroken ne).trans (occurrences_break cs unbroken ne)

theorem blockOccurrences_routine {source pat : List Char} (unbroken : '\n' ∉ pat) (ne : pat ≠ [])
    (absent : contains routineSignature.toList source = false) :
    blockOccurrences pat (routineInsertion? source) = occurrences pat routine.toList := by
  rw [routineInsertion?, absent, if_neg Bool.false_ne_true]
  dsimp only
  split
  · rw [blockOccurrences, Option.map_some, Option.getD_some]
    exact occurrences_append_gap unbroken ne routine.toList
  · rw [blockOccurrences, Option.map_some, Option.getD_some]
    exact occurrences_routineGap_append unbroken ne source routine.toList

/-- An indentation is no part of a pattern that does not start with one. -/
theorem occurrences_indent {indent pat : List Char} (indented : ∀ c ∈ indent, isIndent c = true)
    (ne : pat ≠ []) (solid : pat.head?.any isIndent = false) (line : List Char) :
    occurrences pat (indent ++ line) = occurrences pat line := by
  induction indent with
  | nil => rfl
  | cons c indent ih =>
    have blank := indented c List.mem_cons_self
    have elsewhere : startsWith pat (c :: (indent ++ line)) = false := by
      cases pat with
      | nil => contradiction
      | cons p pat =>
        have differ : p ≠ c := by
          rintro rfl
          exact Bool.false_ne_true (solid.symm.trans blank)
        simp [startsWith, stripStart, differ]
    rw [List.cons_append, occurrences, elsewhere, if_neg Bool.false_ne_true, Nat.zero_add,
      ih fun d h => indented d (List.mem_cons_of_mem c h)]

theorem blockOccurrences_hook {source pat : List Char} {i : Insertion} (unbroken : '\n' ∉ pat)
    (ne : pat ≠ []) (solid : pat.head?.any isIndent = false)
    (made : hookInsertion? source = some i) :
    occurrences pat i.block = (hookStatements.map fun line => occurrences pat line.toList).sum := by
  obtain ⟨indent, indented, lines⟩ := hookInsertion?_lines made
  have statements : (hookText indent).map (occurrences pat) =
      hookStatements.map fun line => occurrences pat line.toList := by
    rw [hookText_eq, List.map_map, List.map_map]
    exact List.map_congr_left fun line _ => occurrences_indent indented ne solid line.toList
  rw [occurrences_eq_sum unbroken ne, lines, List.map_cons, List.sum_cons, occurrences_nil ne,
    Nat.zero_add, statements]

/-- A pattern that does not occur in the fixed lines of a step occurs as often after it. -/
theorem occurrences_injectImports {pat : List Char} (unbroken : '\n' ∉ pat) (ne : pat ≠ [])
    (source : List Char) :
    occurrences pat (injectImports source) = occurrences pat source +
      ((missingImports source).map fun m => occurrences pat m.toList).sum := by
  rw [injectImports, occurrences_insertOr importsInsertion?_into importsInsertion?_fits unbroken ne,
    blockOccurrences_imports unbroken ne]

theorem occurrences_injectRoutine {pat : List Char} (unbroken : '\n' ∉ pat) (ne : pat ≠ [])
    (source : List Char) :
    occurrences pat (injectRoutine source) = occurrences pat source +
      if contains routineSignature.toList source then 0 else occurrences pat routine.toList := by
  by_cases held : contains routineSignature.toList source = true
  · rw [injectRoutine_eq_self held, if_pos held, Nat.add_zero]
  · rw [injectRoutine, occurrences_insertOr routineInsertion?_into routineInsertion?_fits unbroken ne,
      blockOccurrences_routine unbroken ne (Bool.eq_false_iff.mpr held), if_neg held]

theorem occurrences_injectHook {pat : List Char} (unbroken : '\n' ∉ pat) (ne : pat ≠ [])
    (solid : pat.head?.any isIndent = false) (source : List Char) :
    occurrences pat (injectHook source) = occurrences pat source +
      if (hookInsertion? source).isSome then
        (hookStatements.map fun line => occurrences pat line.toList).sum
      else 0 := by
  rw [injectHook, occurrences_insertOr hookInsertion?_into hookInsertion?_fits unbroken ne]
  cases made : hookInsertion? source with
  | none => rfl
  | some i =>
    rw [blockOccurrences, Option.map_some, Option.getD_some, Option.isSome_some, if_pos rfl,
      blockOccurrences_hook unbroken ne solid made]

theorem occurrences_requiredImports : ∀ m ∈ requiredImports,
    occurrences routineSignature.toList m.toList = 0 ∧ occurrences hookMarker.toList m.toList = 0 ∧
      ∀ p ∈ requiredImports, occurrences p.toList m.toList = if m = p then 1 else 0 := by
  decide +kernel

theorem occurrences_hookStatements :
    (hookStatements.map fun line => occurrences routineSignature.toList line.toList).sum = 0 ∧
    (hookStatements.map fun line => occurrences hookMarker.toList line.toList).sum = 1 ∧
    ∀ m ∈ requiredImports,
      (hookStatements.map fun line => occurrences m.toList line.toList).sum = 0 := by
  decide +kernel

theorem sum_missingImports_eq_zero {pat : List Char}
    (none_in : ∀ m ∈ requiredImports, occurrences pat m.toList = 0) (source : List Char) :
    ((missingImports source).map fun m => occurrences pat m.toList).sum = 0 := by
  refine List.sum_eq_zero fun n h => ?_
  obtain ⟨m, missing, rfl⟩ := List.mem_map.mp h
  exact none_in m (List.mem_of_mem_filter missing)

theorem sum_map_eq_count (a : String) (xs : List String) :
    (xs.map fun x => if x = a then 1 else 0).sum = xs.count a := by
  induction xs with
  | nil => rfl
  | cons x xs ih => rw [List.map_cons, List.sum_cons, ih, List.count_cons, Nat.add_comm]; simp

/-- Each required import is inserted once, if it is missing. -/
theorem sum_missingImports {p : String} (required : p ∈ requiredImports) (source : List Char) :
    ((missingImports source).map fun m => occurrences p.toList m.toList).sum =
      if contains p.toList source then 0 else 1 := by
  have each : (missingImports source).map (fun m => occurrences p.toList m.toList) =
      (missingImports source).map fun m => if m = p then 1 else 0 :=
    List.map_congr_left fun m h =>
      (occurrences_requiredImports m (List.mem_of_mem_filter h)).2.2 p required
  have distinct : (missingImports source).Nodup := (by decide : requiredImports.Nodup).filter _
  rw [each, sum_map_eq_count]
  split
  · next held => exact List.count_eq_zero.mpr fun h => by simp [missingImports, held] at h
  · next absent =>
    exact List.count_eq_one_of_mem distinct (by simp [missingImports, required, absent])

theorem max_one_occurrences {pat source : List Char} :
    max 1 (occurrences pat source) =
      occurrences pat source + if contains pat source then 0 else 1 := by
  split
  · next held =>
    have : 0 < occurrences pat source := occurrences_pos_iff.mpr held
    omega
  · next absent =>
    have : occurrences pat source = 0 := occurrences_eq_zero_iff.mpr (Bool.eq_false_iff.mpr absent)
    omega

/-- The source has a first guard with nothing but a comment behind it on its line. -/
def HasHookPlace (source : List Char) : Prop :=
  ∃ before g, FirstGuard true source before g ∧ OpensBlock g

/-- What instrumenting keeps of a source, and how often the result holds what it adds. -/
structure Instrumented (source text : List Char) : Prop where
  lines : (splitOn '\n' source).Sublist (splitOn '\n' text)
  signature : occurrences routineSignature.toList text =
    max 1 (occurrences routineSignature.toList source)
  imports : ∀ m ∈ requiredImports, occurrences m.toList text = max 1 (occurrences m.toList source)
  hook : occurrences hookMarker.toList source ≠ 0 →
    occurrences hookMarker.toList text = occurrences hookMarker.toList source
  hook_placed : occurrences hookMarker.toList source = 0 →
    HasHookPlace (injectRoutine (injectImports source)) → occurrences hookMarker.toList text = 1
  hook_omitted : occurrences hookMarker.toList source = 0 →
    ¬ HasHookPlace (injectRoutine (injectImports source)) → occurrences hookMarker.toList text = 0

theorem signature_instrumented (source : List Char) :
    occurrences routineSignature.toList (injectHook (injectRoutine (injectImports source))) =
      max 1 (occurrences routineSignature.toList source) := by
  have unbroken := unbroken_routineSignature
  have ne : routineSignature.toList ≠ [] := by decide
  have imports : occurrences routineSignature.toList (injectImports source) =
      occurrences routineSignature.toList source := by
    rw [occurrences_injectImports unbroken ne,
      sum_missingImports_eq_zero fun m h => (occurrences_requiredImports m h).1, Nat.add_zero]
  rw [occurrences_injectHook unbroken ne (by decide), occurrences_hookStatements.1, ite_self,
    Nat.add_zero, occurrences_injectRoutine unbroken ne, occurrences_routine.1,
    ← max_one_occurrences, imports]

theorem imports_instrumented (source : List Char) {m : String} (required : m ∈ requiredImports) :
    occurrences m.toList (injectHook (injectRoutine (injectImports source))) =
      max 1 (occurrences m.toList source) := by
  have unbroken := unbroken_of_mem_requiredImports required
  have plain : m.toList ≠ [] ∧ m.toList.head?.any isIndent = false := by
    revert m
    decide
  obtain ⟨ne, solid⟩ := plain
  rw [occurrences_injectHook unbroken ne solid, occurrences_hookStatements.2.2 m required, ite_self,
    Nat.add_zero, occurrences_injectRoutine unbroken ne, occurrences_routine.2.2 m required,
    ite_self, Nat.add_zero, occurrences_injectImports unbroken ne, sum_missingImports required,
    max_one_occurrences]

/-- The first two steps put no mark of a hook into the text. -/
theorem marker_before_hook (source : List Char) :
    occurrences hookMarker.toList (injectRoutine (injectImports source)) =
      occurrences hookMarker.toList source := by
  have unbroken : '\n' ∉ hookMarker.toList := by decide
  have ne : hookMarker.toList ≠ [] := by decide
  rw [occurrences_injectRoutine unbroken ne, occurrences_routine.2.1, ite_self, Nat.add_zero,
    occurrences_injectImports unbroken ne,
    sum_missingImports_eq_zero fun m h => (occurrences_requiredImports m h).2.1, Nat.add_zero]

theorem hook_instrumented (source : List Char) :
    occurrences hookMarker.toList (injectHook (injectRoutine (injectImports source))) =
      occurrences hookMarker.toList source +
        if (hookInsertion? (injectRoutine (injectImports source))).isSome then 1 else 0 := by
  rw [occurrences_injectHook (by decide) (by decide) (by decide), occurrences_hookStatements.2.1,
    marker_before_hook]

theorem isSome_hookInsertion?_iff {source : List Char} :
    (hookInsertion? source).isSome = true ↔
      occurrences hookMarker.toList source = 0 ∧ HasHookPlace source := by
  rw [Option.isSome_iff_exists, occurrences_eq_zero_iff]
  constructor
  · rintro ⟨i, made⟩
    obtain ⟨unmarked, before, g, first, opens, -⟩ := hookInsertion?_eq_some_iff.mp made
    exact ⟨unmarked, before, g, first, opens⟩
  · rintro ⟨unmarked, before, g, first, opens⟩
    exact ⟨_, hookInsertion?_eq_some_iff.mpr ⟨unmarked, before, g, first, opens, rfl⟩⟩

theorem instrumented (source : List Char) :
    Instrumented source (injectHook (injectRoutine (injectImports source))) := by
  have place : _ ↔ _ ∧ HasHookPlace (injectRoutine (injectImports source)) :=
    isSome_hookInsertion?_iff
  rw [marker_before_hook] at place
  have marked := hook_instrumented source
  refine ⟨?_, signature_instrumented source, fun m => imports_instrumented source, ?_, ?_, ?_⟩
  · calc (splitOn '\n' source).Sublist (splitOn '\n' (injectImports source)) :=
          lines_sublist_insertOr importsInsertion?_into importsInsertion?_fits
      _ |>.Sublist (splitOn '\n' (injectRoutine (injectImports source))) :=
          lines_sublist_insertOr routineInsertion?_into routineInsertion?_fits
      _ |>.Sublist (splitOn '\n' (injectHook (injectRoutine (injectImports source)))) :=
          lines_sublist_insertOr hookInsertion?_into hookInsertion?_fits
  · intro held
    rw [marked, if_neg fun here => held (place.mp here).1, Nat.add_zero]
  · intro absent here
    rw [marked, absent, if_pos (place.mpr ⟨absent, here⟩)]
  · intro absent elsewhere
    rw [marked, absent, if_neg fun here => elsewhere (place.mp here).2]

/-- Each step inserts nothing but lines of its own between two lines of the text it is given, if it
inserts anything. So the lines of a source are lines of the result, in their order, and the result
holds each import, the head of the routine and the mark of the hook as often as the source does, or
once if the source does not; the hook is there only if the source has a place for it. -/
theorem instrument_inserts_lines :
    (∀ source, InsertsLines (requiredImports.map String.toList) source (injectImports source)) ∧
    (∀ source, InsertsLines (splitOn '\n' routine.toList) source (injectRoutine source)) ∧
    (∀ source, ∃ indent, (∀ c ∈ indent, isIndent c = true) ∧
      InsertsLines (hookText indent) source (injectHook source)) ∧
    ∀ source : String, Instrumented source.toList (instrument source).toList := by
  refine ⟨insertsLines_injectImports, insertsLines_injectRoutine, insertsLines_injectHook,
    fun source => ?_⟩
  rw [instrument, String.toList_ofList]
  exact instrumented source.toList

end AgentWorkbench.Instrument
