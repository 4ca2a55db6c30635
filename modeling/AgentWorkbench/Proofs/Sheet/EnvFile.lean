import AgentWorkbench.Proofs.Text.Lines
import AgentWorkbench.Proofs.Text.Search
import AgentWorkbench.Sheet.EnvFile
import Mathlib.Data.List.Induction

/-!
Environment files in layers. Files laid one over the other give what their lines give when they are
read as one file: each variable stands where it was first declared, and has the value that was
declared last.
-/
namespace AgentWorkbench.EnvVars

open Text

/-! A line. -/

/-- The line declares the variable: but for blanks at its ends it is the key, a sign and the
value. -/
structure Declares (line : List Char) (key value : String) : Prop where
  text : trim line = key.toList ++ '=' :: value.toList
  named : key ≠ ""
  plain : '=' ∉ key.toList
  no_comment : key.toList.head? ≠ some '#'

theorem ofLine?_eq_some_iff {line : List Char} {key value : String} :
    ofLine? line = some (key, value) ↔ Declares line key value := by
  constructor
  · intro h
    rw [ofLine?] at h
    split at h
    · cases h
    · next no_comment =>
        split at h
        · next before rest found =>
            obtain ⟨text, plain⟩ := cutAt_eq_some_iff.mp found
            split at h
            · cases h
            · next named =>
                cases h
                have ne : before ≠ [] := by simpa using named
                rw [text, List.head?_append_of_ne_nil _ ne] at no_comment
                exact ⟨by simp [text], by simpa using ne, by simpa using plain,
                  by simpa using no_comment⟩
        · cases h
  · intro d
    have ne : key.toList ≠ [] := by simpa using d.named
    have no_comment : (trim line).head? ≠ some '#' := by
      rw [d.text, List.head?_append_of_ne_nil _ ne]
      exact d.no_comment
    have found : cutAt ['='] (trim line) = some (key.toList, value.toList) :=
      cutAt_eq_some_iff.mpr ⟨d.text, d.plain⟩
    simp only [ofLine?, if_neg no_comment, found]
    rw [if_neg (by simpa using ne), String.ofList_toList, String.ofList_toList]

/-- A line's ends do not matter if they are blank. -/
theorem ofLine?_dropLast (part : List Char) : ofLine? (dropLast '\r' part) = ofLine? part := by
  obtain ⟨dropped, blank, cut⟩ := exists_dropLast_append '\r' part
  have same : trim part = trim (dropLast '\r' part) := by
    conv_lhs => rw [cut]
    refine trim_append_of_blank _ ?_
    obtain rfl | rfl := blank <;> rfl
  rw [ofLine?, ofLine?, same]

/-! Variables in order. -/

def keys (vars : EnvVars) : List String := vars.map (·.1)

@[simp] theorem keys_nil : keys [] = [] := rfl

@[simp] theorem keys_cons (k v : String) (vars : EnvVars) :
    keys ((k, v) :: vars) = k :: keys vars := rfl

theorem keys_set (key value : String) (vars : EnvVars) :
    keys (vars.set key value) = if key ∈ vars.keys then vars.keys else vars.keys ++ [key] := by
  induction vars with
  | nil => simp [set]
  | cons entry vars ih =>
      obtain ⟨k, v⟩ := entry
      by_cases here : k = key
      · simp [set, here]
      · simp only [set, if_neg here, keys_cons, ih, List.mem_cons, Ne.symm here, false_or]
        split <;> rfl

theorem get?_set (key value other : String) (vars : EnvVars) :
    (vars.set key value).get? other = if key = other then some value else vars.get? other := by
  induction vars with
  | nil => by_cases same : key = other <;> simp [set, get?, same]
  | cons entry vars ih =>
      obtain ⟨k, v⟩ := entry
      by_cases here : k = key
      · subst here
        by_cases same : k = other <;> simp [set, get?, same]
      · simp only [get?] at ih
        by_cases found : k = other
        · subst found
          simp [set, get?, here, Ne.symm here]
        · simp [set, get?, here, found, ih]

/-- A variable that is there may be set before another one. -/
theorem set_comm {vars : EnvVars} {key other : String} (mem : key ∈ vars.keys) (ne : other ≠ key)
    (value value' : String) :
    (vars.set other value').set key value = (vars.set key value).set other value' := by
  induction vars with
  | nil => simp at mem
  | cons entry vars ih =>
      obtain ⟨k, v⟩ := entry
      by_cases here : k = key
      · subst here
        simp [set, ne.symm]
      · have mem : key ∈ keys vars := by simpa [Ne.symm here] using mem
        by_cases there : k = other
        · subst there
          simp [set, here]
        · simp [set, here, there, ih mem]

theorem set_set (vars : EnvVars) (key value value' : String) :
    (vars.set key value').set key value = vars.set key value := by
  induction vars with
  | nil => simp [set]
  | cons entry vars ih =>
      obtain ⟨k, v⟩ := entry
      by_cases here : k = key <;> simp [set, here, ih]

/-! Variables laid over others. -/

theorem merge_append (vars : EnvVars) (declared more : List (String × String)) :
    vars.merge (declared ++ more) = (vars.merge declared).merge more :=
  List.foldl_append

theorem set_merge {vars : EnvVars} {key : String} (mem : key ∈ vars.keys)
    {declared : List (String × String)} (others : key ∉ declared.map (·.1)) (value : String) :
    (vars.merge declared).set key value = (vars.set key value).merge declared := by
  induction declared generalizing vars with
  | nil => rfl
  | cons entry declared ih =>
      obtain ⟨k, v⟩ := entry
      obtain ⟨ne, others⟩ := List.ne_and_not_mem_of_not_mem_cons others
      have still : key ∈ (vars.set k v).keys := by
        rw [keys_set]
        split
        · exact mem
        · exact List.mem_append_left _ mem
      change ((vars.set k v).merge declared).set key value =
        ((vars.set key value).set k v).merge declared
      rw [ih still others, set_comm mem ne.symm]

theorem merge_set (vars : EnvVars) {overlay : EnvVars} (distinct : overlay.keys.Nodup)
    (key value : String) :
    vars.merge (overlay.set key value) = (vars.merge overlay).set key value := by
  induction overlay generalizing vars with
  | nil => rfl
  | cons entry overlay ih =>
      obtain ⟨k, v⟩ := entry
      obtain ⟨first, distinct⟩ := List.nodup_cons.mp distinct
      by_cases here : k = key
      · subst here
        have mem : k ∈ (vars.set k v).keys := by
          rw [keys_set]
          split
          · assumption
          · simp
        rw [set, if_pos rfl]
        change (vars.set k value).merge overlay = ((vars.set k v).merge overlay).set k value
        rw [set_merge mem first, set_set]
      · rw [set, if_neg here]
        exact ih _ distinct

theorem keys_merge_nodup {vars : EnvVars} (distinct : vars.keys.Nodup)
    (declared : List (String × String)) : (vars.merge declared).keys.Nodup := by
  induction declared generalizing vars with
  | nil => exact distinct
  | cons entry declared ih =>
      refine ih ?_
      rw [keys_set]
      split
      · exact distinct
      · next new =>
          refine List.nodup_append.mpr ⟨distinct, by simp, fun k mem k' mem' same => new ?_⟩
          obtain rfl := List.mem_singleton.mp mem'
          exact same ▸ mem

theorem keys_merge_nil_nodup (declared : List (String × String)) :
    (merge [] declared).keys.Nodup := by
  have none : (keys []).Nodup := List.nodup_nil
  exact keys_merge_nodup none declared

/-- Laying over what declarations give is declaring them one after the other. -/
theorem merge_merge_nil (vars : EnvVars) (declared : List (String × String)) :
    vars.merge (merge [] declared) = vars.merge declared := by
  induction declared using List.reverseRecOn with
  | nil => rfl
  | append_singleton declared entry ih =>
      rw [merge_append, merge_append]
      change vars.merge ((merge [] declared).set _ _) = (vars.merge declared).set _ _
      rw [merge_set vars (keys_merge_nil_nodup declared), ih]

/-! Variables of lines. -/

/-- The variables that lines declare. -/
def ofLines (lines : List (List Char)) : EnvVars := merge [] (lines.filterMap ofLine?)

theorem parse_eq (content : String) : parse content = ofLines (lines content.toList) := by
  rw [parse, ofLines, merge, List.foldl_filterMap]
  congr 1
  funext vars line
  cases ofLine? line <;> rfl

theorem merge_ofLines (lines more : List (List Char)) :
    (ofLines lines).merge (ofLines more) = ofLines (lines ++ more) := by
  rw [ofLines, ofLines, merge_merge_nil, ofLines, List.filterMap_append, merge_append]

/-- A break at the end of a text declares nothing. -/
theorem ofLines_break (cs rest : List Char) :
    ofLines (lines (cs ++ '\n' :: rest)) = ofLines (lines cs ++ lines rest) := by
  obtain ⟨part, clean, cut⟩ := exists_unfinished cs
  have whole := wholeLines_completeLines cs
  generalize completeLines cs = done at cut whole
  subst cut
  rw [List.append_assoc, lines_append whole, lines_append whole, lines_part clean, ofLines, ofLines]
  by_cases ne : part = []
  · subst ne
    rw [List.append_assoc, List.filterMap_append, List.filterMap_append]
    rfl
  · rw [lines_last ne clean, List.append_assoc, List.filterMap_append, List.filterMap_append,
      List.filterMap_cons, ofLine?_dropLast]
    rfl

theorem ofLines_append_singleton (lines : List (List Char)) (line : List Char) :
    ofLines (lines ++ [line]) = match ofLine? line with
      | some (key, value) => (ofLines lines).set key value
      | none => ofLines lines := by
  rw [ofLines, List.filterMap_append, merge_append]
  cases found : ofLine? line with
  | none => simp [found]; rfl
  | some entry => simp [found]; rfl

theorem mem_keys_ofLines {lines : List (List Char)} {key : String} :
    key ∈ (ofLines lines).keys ↔ ∃ line ∈ lines, ∃ value, Declares line key value := by
  simp only [← ofLine?_eq_some_iff]
  induction lines using List.reverseRecOn with
  | nil => simp [ofLines, merge]
  | append_singleton lines line ih =>
      simp only [List.mem_append, or_and_right, exists_or, List.mem_singleton, exists_eq_left]
      rw [ofLines_append_singleton, ← ih]
      cases found : ofLine? line with
      | none => simp
      | some entry =>
          obtain ⟨k, v⟩ := entry
          have here : (∃ value, some (k, v) = some (key, value)) ↔ key = k := by simp [eq_comm]
          rw [here, keys_set]
          split
          · next mem => exact ⟨.inl, fun h => h.elim (fun h => h) fun same => same ▸ mem⟩
          · rw [List.mem_append, List.mem_singleton]

/-- A line declares one key, before any line declares the other. -/
def DeclaredBefore (lines : List (List Char)) (key later : String) : Prop :=
  ∃ front line rest, lines = front ++ line :: rest ∧ (∃ value, Declares line key value) ∧
    ∀ other ∈ front, ∀ value, ¬ Declares other later value

/-- The last of the lines that declare the key gives it the value. -/
def LastDeclares (lines : List (List Char)) (key value : String) : Prop :=
  ∃ front line rest, lines = front ++ line :: rest ∧ Declares line key value ∧
    ∀ other ∈ rest, ∀ value, ¬ Declares other key value

/-- Each key that lines declare once, in the order of the first lines that declare them, and with
the value of the last one. -/
structure Collects (lines : List (List Char)) (vars : EnvVars) : Prop where
  once : vars.keys.Nodup
  order : vars.keys.Pairwise (DeclaredBefore lines)
  last : ∀ key value, vars.get? key = some value ↔ LastDeclares lines key value
  named : ∀ key ∈ vars.keys,
    key ≠ "" ∧ '=' ∉ key.toList ∧ '\n' ∉ key.toList ∧ key.toList.head? ≠ some '#'

theorem DeclaredBefore.append {lines : List (List Char)} {key later : String}
    (h : DeclaredBefore lines key later) (more : List (List Char)) :
    DeclaredBefore (lines ++ more) key later := by
  obtain ⟨front, line, rest, rfl, declares, first⟩ := h
  exact ⟨front, line, rest ++ more, by simp, declares, first⟩

theorem keys_ofLines_pairwise (lines : List (List Char)) :
    (ofLines lines).keys.Pairwise (DeclaredBefore lines) := by
  induction lines using List.reverseRecOn with
  | nil => exact .nil
  | append_singleton lines line ih =>
      have before := ih.imp fun h => h.append [line]
      rw [ofLines_append_singleton]
      cases found : ofLine? line with
      | none => exact before
      | some entry =>
          obtain ⟨k, v⟩ := entry
          dsimp only
          rw [keys_set]
          split
          · exact before
          · next new =>
              refine List.pairwise_append.mpr ⟨before, List.pairwise_singleton _ _, ?_⟩
              intro key mem later same
              obtain rfl := List.mem_singleton.mp same
              obtain ⟨other, there, declares⟩ := mem_keys_ofLines.mp mem
              obtain ⟨front, rest, rfl⟩ := List.append_of_mem there
              refine ⟨front, other, rest ++ [line], by simp, declares, ?_⟩
              intro earlier there value d
              exact new (mem_keys_ofLines.mpr ⟨earlier, List.mem_append_left _ there, value, d⟩)

theorem lastDeclares_append_singleton {lines : List (List Char)} {line : List Char}
    {key value : String} :
    LastDeclares (lines ++ [line]) key value ↔
      Declares line key value ∨
        (∀ other, ¬ Declares line key other) ∧ LastDeclares lines key value := by
  constructor
  · rintro ⟨front, last, rest, cut, declares, none_later⟩
    obtain rfl | ⟨rest, end_line, rfl⟩ := List.eq_nil_or_concat rest
    · obtain ⟨-, same⟩ := List.append_inj' cut rfl
      obtain rfl : line = last := by simpa using same
      exact .inl declares
    · rw [List.concat_eq_append, ← List.cons_append, ← List.append_assoc] at cut
      obtain ⟨rfl, same⟩ := List.append_inj' cut rfl
      obtain rfl : line = end_line := by simpa using same
      rw [List.concat_eq_append] at none_later
      exact .inr ⟨none_later line (by simp), front, last, rest, rfl, declares,
        fun other mem => none_later other (List.mem_append_left _ mem)⟩
  · rintro (declares | ⟨none_here, front, last, rest, rfl, declares, none_later⟩)
    · exact ⟨lines, line, [], rfl, declares, by simp⟩
    · refine ⟨front, last, rest ++ [line], by simp, declares, fun other mem => ?_⟩
      obtain mem | mem := List.mem_append.mp mem
      · exact none_later other mem
      · exact List.mem_singleton.mp mem ▸ none_here

theorem get?_ofLines {lines : List (List Char)} {key value : String} :
    (ofLines lines).get? key = some value ↔ LastDeclares lines key value := by
  induction lines using List.reverseRecOn with
  | nil => simp [ofLines, merge, get?, LastDeclares]
  | append_singleton lines line ih =>
      rw [lastDeclares_append_singleton, ← ih, ofLines_append_singleton]
      simp only [← ofLine?_eq_some_iff]
      cases found : ofLine? line with
      | none => simp
      | some entry =>
          obtain ⟨k, v⟩ := entry
          dsimp only
          rw [get?_set]
          by_cases same : k = key <;> simp [same]

theorem collects_ofLines {lines : List (List Char)} (unbroken : ∀ line ∈ lines, '\n' ∉ line) :
    Collects lines (ofLines lines) where
  once := keys_merge_nil_nodup _
  order := keys_ofLines_pairwise lines
  last _ _ := get?_ofLines
  named key mem := by
    obtain ⟨line, there, value, d⟩ := mem_keys_ofLines.mp mem
    refine ⟨d.named, d.plain, fun broken => unbroken line there ?_, d.no_comment⟩
    obtain ⟨front, rear, -, -, cut⟩ := exists_trim_append line
    rw [cut, d.text]
    simp [broken]

/-- The lines of the environment files among the files, in their order. -/
def envLines (files : List SourceFile) : List (List Char) :=
  (files.filter (isEnvFile ·.filename)).flatMap fun file => lines file.code.toList

theorem ofFiles_eq (files : List SourceFile) : ofFiles files = ofLines (envLines files) := by
  rw [ofFiles, envLines]
  induction files.filter (isEnvFile ·.filename) using List.reverseRecOn with
  | nil => rfl
  | append_singleton files file ih =>
      rw [List.foldl_append, ih, List.foldl_cons, List.foldl_nil, parse_eq, merge_ofLines,
        List.flatMap_append, List.flatMap_singleton]

/-- Files laid over each other are read as one file, and what files declare together is what their
lines declare. -/
theorem layers_read_as_one :
    (∀ base overlay : String,
      (parse base).merge (parse overlay) = parse (base ++ "\n" ++ overlay)) ∧
      ∀ files : List SourceFile, Collects (envLines files) (ofFiles files) := by
  refine ⟨fun base overlay => ?_, fun files => ?_⟩
  · rw [parse_eq, parse_eq, parse_eq, merge_ofLines, ← ofLines_break, String.toList_append,
      String.toList_append, List.append_assoc]
    rfl
  · rw [ofFiles_eq]
    refine collects_ofLines fun line mem => ?_
    obtain ⟨file, -, mem⟩ := List.mem_flatMap.mp mem
    exact unbroken_of_mem_lines mem

end AgentWorkbench.EnvVars
