import AgentWorkbench.Proofs.Text.Lines
import AgentWorkbench.Proofs.Workspace.Uploads

/-!
What an upload can reach. Its path is told by its parts: it is taken if it does not start at the
root, never goes up and has a name, and then it leads to those names below whatever directory it is
joined to. Nothing but what lies along them is made or written.
-/
namespace AgentWorkbench
namespace FilePath

open Text

/-! Parts of a path. -/

/-- The path has these parts between its slashes; slashes in a row and at the ends have none. -/
inductive Segmented : List Char → List (List Char) → Prop where
  | nil : Segmented [] []
  | slash {rest : List Char} {segments : List (List Char)} (later : Segmented rest segments) :
      Segmented ('/' :: rest) segments
  | last {segment : List Char} (ne : segment ≠ []) (clean : '/' ∉ segment) :
      Segmented segment [segment]
  | segment {segment rest : List Char} {segments : List (List Char)} (ne : segment ≠ [])
      (clean : '/' ∉ segment) (later : Segmented rest segments) :
      Segmented (segment ++ '/' :: rest) (segment :: segments)

theorem Segmented.filter_splitOn {cs : List Char} {segments : List (List Char)}
    (h : Segmented cs segments) : (splitOn '/' cs).filter (!·.isEmpty) = segments := by
  induction h with
  | nil => rfl
  | slash _ ih => rwa [show splitOn '/' ('/' :: _) = [] :: splitOn '/' _ from rfl]
  | last ne clean => simp [splitOn_last clean, ne]
  | segment ne clean _ ih => simp [splitOn_part clean, ne, ih]

theorem Segmented.of_join {parts : List (List Char)} (clean : ∀ part ∈ parts, '/' ∉ part) :
    Segmented (Text.join ['/'] parts) (parts.filter (!·.isEmpty)) := by
  induction parts with
  | nil => exact .nil
  | cons part rest ih =>
      obtain ⟨first, others⟩ := List.forall_mem_cons.mp clean
      cases rest with
      | nil =>
          by_cases ne : part = []
          · subst ne
            exact .nil
          · simpa [Text.join, ne] using Segmented.last ne first
      | cons next rest =>
          have later := ih others
          rw [Text.join, List.append_assoc, List.singleton_append]
          · by_cases ne : part = []
            · subst ne
              exact .slash later
            · rw [List.filter_cons, if_pos (by simpa using ne)]
              exact .segment ne first later
          · exact List.cons_ne_nil _ _

theorem segmented_iff {cs : List Char} {segments : List (List Char)} :
    Segmented cs segments ↔ segments = (splitOn '/' cs).filter (!·.isEmpty) := by
  constructor
  · intro h
    exact h.filter_splitOn.symm
  · rintro rfl
    have clean : ∀ part ∈ splitOn '/' cs, '/' ∉ part := fun _ => unbroken_of_mem_splitOn
    have whole := Segmented.of_join clean
    rwa [join_splitOn] at whole

theorem Segmented.append {xs ys : List Char} {segments more : List (List Char)}
    (front : Segmented xs segments) (back : Segmented ys more) :
    Segmented (xs ++ '/' :: ys) (segments ++ more) := by
  induction front with
  | nil => exact .slash back
  | slash _ ih => exact .slash ih
  | last ne clean => exact .segment ne clean back
  | segment ne clean _ ih =>
      rw [List.append_assoc]
      exact .segment ne clean ih

def segments (path : String) : List (List Char) :=
  (splitOn '/' path.toList).filter (!·.isEmpty)

theorem segmented_segments (path : String) : Segmented path.toList (segments path) :=
  segmented_iff.mpr rfl

/-- The parts that are names. -/
def ordinary (segments : List (List Char)) : List (List Char) :=
  segments.filter fun segment => segment ≠ ['.'] ∧ segment ≠ ['.', '.']

theorem components_eq (path : String) : components path =
    (if isAbsolute path then [.root] else []) ++
      (segments path).map fun segment => .ofText (String.ofList segment) := by
  rw [components, parts, List.map_map]
  rfl

theorem ofText_ofList (segment : List Char) :
    PathComponent.ofText (String.ofList segment) =
      if segment = ['.'] then .here else if segment = ['.', '.'] then .up
      else .name (String.ofList segment) := by
  have here : String.ofList segment = "." ↔ segment = ['.'] := by
    rw [← String.toList_inj, String.toList_ofList]
    rfl
  have up : String.ofList segment = ".." ↔ segment = ['.', '.'] := by
    rw [← String.toList_inj, String.toList_ofList]
    rfl
  rw [PathComponent.ofText]
  simp only [here, up]

theorem names_eq (path : String) : names path = (ordinary (segments path)).map String.ofList := by
  have own : (if isAbsolute path then [PathComponent.root] else []).filterMap
      PathComponent.name? = [] := by
    split <;> rfl
  rw [names, components_eq, List.filterMap_append, own, List.nil_append, List.filterMap_map,
    ordinary, ← List.filterMap_eq_map, List.filterMap_filter]
  refine List.filterMap_congr fun segment _ => ?_
  rw [Function.comp, ofText_ofList]
  by_cases here : segment = ['.']
  · simp [here, PathComponent.name?]
  · by_cases up : segment = ['.', '.'] <;> simp [here, up, PathComponent.name?]

/-- Whether a path starts at the root or goes up somewhere. -/
theorem any_components_iff (path : String) :
    ((components path).any fun c => c = .root || c = .up) = true ↔
      isAbsolute path = true ∨ ['.', '.'] ∈ segments path := by
  have own : ((if isAbsolute path then [PathComponent.root] else []).any
      fun c => c = .root || c = .up) = isAbsolute path := by
    cases isAbsolute path <;> rfl
  have each (segment : List Char) :
      (PathComponent.ofText (String.ofList segment) = .root ∨
        PathComponent.ofText (String.ofList segment) = .up) ↔ segment = ['.', '.'] := by
    rw [ofText_ofList]
    by_cases here : segment = ['.']
    · simp [here]
    · by_cases up : segment = ['.', '.'] <;> simp [here, up]
  rw [components_eq, List.any_append, own, List.any_map, Bool.or_eq_true, List.any_eq_true]
  simp only [Function.comp, Bool.or_eq_true, decide_eq_true_eq, each, exists_eq_right]

theorem inside?_eq_some_iff {path : String} {names : List String} :
    inside? path = some names ↔
      (isAbsolute path = false ∧ ['.', '.'] ∉ segments path ∧ ordinary (segments path) ≠ []) ∧
        names = (ordinary (segments path)).map String.ofList := by
  rw [inside?, names_eq, List.isEmpty_map]
  by_cases leaves : (components path).any (fun c => c = .root || c = .up) = true
  · rw [if_pos leaves]
    refine iff_of_false nofun fun ⟨⟨relative, stays, _⟩, _⟩ => ?_
    obtain absolute | up := (any_components_iff path).mp leaves
    · exact absurd absolute (by rw [relative]; exact Bool.false_ne_true)
    · exact stays up
  · have stays := (any_components_iff path).not.mp leaves
    rw [not_or, Bool.not_eq_true] at stays
    rw [if_neg leaves]
    by_cases unnamed : ordinary (segments path) = []
    · simp [unnamed]
    · rw [if_neg (by simpa using unnamed), Option.some.injEq]
      exact ⟨fun same => ⟨⟨stays.1, stays.2, unnamed⟩, same.symm⟩, fun taken => taken.2.symm⟩

/-! Joining a path to that of a directory. -/

/-- The path below a root; one that starts at the root of everything stands for itself. -/
def join (root path : String) : String :=
  if isAbsolute path then path
  else if root = "" || endsInSlash root then root ++ path
  else root ++ "/" ++ path

theorem exists_toList_join {path : String} (relative : isAbsolute path = false) {root : String}
    (ne : root ≠ "") : ∃ front,
      (root.toList = front ∨ root.toList = front ++ ['/']) ∧
        (join root path).toList = front ++ '/' :: path.toList := by
  by_cases slash : root.toList.getLast? = some '/'
  · have whole : root.toList = root.toList.dropLast ++ ['/'] :=
      (List.dropLast_append_getLast? '/' slash).symm
    have joined : join root path = root ++ path := by simp [join, relative, endsInSlash, slash]
    refine ⟨root.toList.dropLast, .inr whole, ?_⟩
    rw [joined, String.toList_append, ← List.singleton_append, ← List.append_assoc, ← whole]
  · have joined : join root path = root ++ "/" ++ path := by
      simp [join, relative, endsInSlash, slash, ne]
    refine ⟨root.toList, .inl rfl, ?_⟩
    rw [joined, String.toList_append, String.toList_append, List.append_assoc]
    rfl

theorem join_empty (path : String) : join "" path = path := by
  cases h : isAbsolute path <;> simp [join, h]

theorem segments_join {path : String} (relative : isAbsolute path = false) (root : String) :
    segments (join root path) = segments root ++ segments path := by
  by_cases empty : root = ""
  · rw [empty, join_empty]
    rfl
  obtain ⟨front, ends, joined⟩ := exists_toList_join relative empty
  have above : Segmented front (segments root) := by
    obtain same | same := ends
    · exact same ▸ segmented_segments root
    · have parted : Segmented front ((splitOn '/' front).filter (!·.isEmpty)) :=
        segmented_iff.mpr rfl
      have whole := parted.append .nil
      rw [List.append_nil, ← same, segmented_iff] at whole
      rwa [segments, ← whole]
  have all := above.append (segmented_segments path)
  rw [← joined] at all
  exact (segmented_iff.mp all).symm

theorem isAbsolute_join {path : String} (relative : isAbsolute path = false) (root : String) :
    isAbsolute (join root path) = isAbsolute root := by
  by_cases empty : root = ""
  · rw [empty, join_empty, relative]
    rfl
  obtain ⟨front, ends, joined⟩ := exists_toList_join relative empty
  have ne : root.toList ≠ [] := fun none => empty (String.toList_eq_nil_iff.mp none)
  rw [isAbsolute, isAbsolute, joined]
  obtain same | same := ends
  · rw [same] at ne ⊢
    rw [List.head?_append_of_ne_nil _ ne]
  · rw [same]
    cases front <;> rfl

theorem components_join {path : String} (relative : isAbsolute path = false) (root : String) :
    components (join root path) = components root ++ components path := by
  rw [components_eq, isAbsolute_join relative, segments_join relative, List.map_append,
    ← List.append_assoc, ← components_eq, components_eq path, relative]
  rfl

/-! Following a path. -/

/-- The directory that a component leads to, from one that it is followed in. -/
def enter (dir : List String) : PathComponent → List String
  | .root => []
  | .here => dir
  | .up => dir.dropLast
  | .name text => dir ++ [text]

/-- Where a path leads from a directory. -/
def follow (dir : List String) (path : String) : List String :=
  (components path).foldl enter dir

theorem filter_ne_here {path : List PathComponent} (stays : ∀ c ∈ path, c ≠ .root ∧ c ≠ .up) :
    path.filter (· ≠ .here) = (path.filterMap PathComponent.name?).map .name := by
  induction path with
  | nil => rfl
  | cons c rest ih =>
      obtain ⟨first, others⟩ := List.forall_mem_cons.mp stays
      cases c with
      | root => exact absurd rfl first.1
      | up => exact absurd rfl first.2
      | here => exact ih others
      | name text => exact congrArg (PathComponent.name text :: ·) (ih others)

theorem foldl_enter {path : List PathComponent} (stays : ∀ c ∈ path, c ≠ .root ∧ c ≠ .up)
    (dir : List String) : path.foldl enter dir = dir ++ path.filterMap PathComponent.name? := by
  induction path generalizing dir with
  | nil => exact (List.append_nil dir).symm
  | cons c rest ih =>
      obtain ⟨first, others⟩ := List.forall_mem_cons.mp stays
      rw [List.foldl_cons, ih others]
      cases c with
      | root => exact absurd rfl first.1
      | up => exact absurd rfl first.2
      | here => rfl
      | name text => simp [enter, PathComponent.name?]

theorem stays_of_inside? {path : String} {names : List String}
    (inside : inside? path = some names) : ∀ c ∈ components path, c ≠ .root ∧ c ≠ .up := by
  obtain ⟨⟨relative, up, -⟩, -⟩ := inside?_eq_some_iff.mp inside
  have no := (any_components_iff path).not.mpr (by simp [relative, up])
  simpa using no

theorem filterMap_name?_components {path : String} {names : List String}
    (inside : inside? path = some names) :
    (components path).filterMap PathComponent.name? = names := by
  rw [(inside?_eq_some_iff.mp inside).2, ← names_eq, FilePath.names]

/-- Joined to a root, an accepted path has the root's components and then its names, when dots are
left out. -/
theorem filter_components_join {path : String} {names : List String}
    (inside : inside? path = some names) (root : String) :
    (components (join root path)).filter (· ≠ .here) =
      (components root).filter (· ≠ .here) ++ names.map .name := by
  rw [components_join (inside?_eq_some_iff.mp inside).1.1, List.filter_append,
    filter_ne_here (stays_of_inside? inside), filterMap_name?_components inside]

/-- Below whatever root, an accepted path leads to its names. -/
theorem follow_join {path : String} {names : List String} (inside : inside? path = some names)
    (root : String) (dir : List String) :
    follow dir (join root path) = follow dir root ++ names := by
  rw [follow, components_join (inside?_eq_some_iff.mp inside).1.1, List.foldl_append,
    foldl_enter (stays_of_inside? inside), filterMap_name?_components inside]
  rfl

end FilePath

namespace Workspace

/-! What an upload makes and writes. -/

/-- Between two workspaces only directories that lead to a place have been made, and no file was
written but the one at the place. -/
structure ChangedAt (place : List String) (w w' : Workspace) : Prop where
  directories : ∃ made, w'.directories = w.directories ++ made ∧
    ∀ dir ∈ made, dir ≠ [] ∧ dir <+: place.dropLast
  files : ∀ other, other ≠ place → w'.file? other = w.file? other

theorem ChangedAt.refl (place : List String) (w : Workspace) : ChangedAt place w w where
  directories := ⟨[], (List.append_nil _).symm, nofun⟩
  files _ _ := rfl

theorem ChangedAt.trans {place : List String} {w w₁ w₂ : Workspace} (first : ChangedAt place w w₁)
    (second : ChangedAt place w₁ w₂) : ChangedAt place w w₂ where
  directories := by
    obtain ⟨made, same, along⟩ := first.directories
    obtain ⟨made', same', along'⟩ := second.directories
    refine ⟨made ++ made', by rw [same', same, List.append_assoc], fun dir mem => ?_⟩
    exact (List.mem_append.mp mem).elim (along dir) (along' dir)
  files other ne := (second.files other ne).trans (first.files other ne)

theorem changedAt_makeDirectories {place done names : List String}
    (along : done ++ names <+: place.dropLast) (w : Workspace) :
    ChangedAt place w (w.makeDirectories done names).2 := by
  fun_induction makeDirectories w done names with
  | case1 w | case2 w | case3 w => exact .refl place w
  | case4 w done name rest here _ _ _ ih => exact ih (by rwa [List.append_cons] at along)
  | case5 w done name rest here _ _ _ ih =>
      rw [List.append_cons] at along
      have made : ChangedAt place w { w with directories := w.directories ++ [here] } := {
        directories := by
          refine ⟨[here], rfl, fun dir mem => ?_⟩
          obtain rfl := List.mem_singleton.mp mem
          exact ⟨List.append_ne_nil_of_right_ne_nil done (List.cons_ne_nil name []),
            (List.prefix_append here rest).trans along⟩
        files := fun _ _ => rfl }
      exact made.trans (ih along)

theorem changedAt_setFile (w : Workspace) (place : List String) (content : String) :
    ChangedAt place w (w.setFile place content) where
  directories := by
    refine ⟨[], ?_, nofun⟩
    rw [setFile, List.append_nil]
    split <;> rfl
  files other ne := by rw [file?_setFile, if_neg ne]

theorem changedAt_write (w : Workspace) (path : String) (place : List String) (content : String) :
    ChangedAt place w (w.write path place content).2 := by
  rw [write]
  split
  · exact .refl place w
  · exact changedAt_setFile w place content

theorem changedAt_upload {path : String} {names : List String}
    (inside : FilePath.inside? path = some names) (w : Workspace) (content : String) :
    ChangedAt names w (w.upload path content).2 ∧
      ∀ other, (w.upload path content).1 ≠ .error (.invalidPath other) := by
  simp only [upload, inside]
  generalize made : (if names.dropLast.any FilePath.hasNul then
    (Except.error FileError.nulInPath, w) else w.makeDirectories [] names.dropLast) = below
  have above : ChangedAt names w below.2 := by
    rw [← made]
    split
    · exact .refl names w
    · exact changedAt_makeDirectories (List.prefix_refl _) w
  obtain ⟨_ | _, w₁⟩ := below
  · exact ⟨above, by simp⟩
  · have written := above.trans (changedAt_write w₁ path names content)
    generalize w₁.write path names content = outcome at written ⊢
    obtain ⟨_ | _, w₂⟩ := outcome
    · exact ⟨written, by simp⟩
    · exact ⟨written, by simp⟩

/-- A path that is uploaded to is taken exactly if it does not start at the root, has no part that
goes up and has a name among its parts. Below whatever directory it is joined to it then leads to
its names, in their order, and the upload makes directories along them and writes what they lead
to, and nothing else. Any other path is refused, with nothing made or written. -/
theorem upload_confined (path : String) :
    ∃ segments : List (List Char),
      (∀ others, FilePath.Segmented path.toList others ↔ others = segments) ∧
      ((FilePath.inside? path).isSome ↔ path.toList.head? ≠ some '/' ∧
        ['.', '.'] ∉ segments ∧ FilePath.ordinary segments ≠ []) ∧
      (∀ names, FilePath.inside? path = some names →
        names = (FilePath.ordinary segments).map String.ofList ∧ names ≠ [] ∧
        (∀ root, (FilePath.components (FilePath.join root path)).filter (· ≠ .here) =
          (FilePath.components root).filter (· ≠ .here) ++ names.map .name) ∧
        (∀ root dir, FilePath.follow dir (FilePath.join root path) =
          FilePath.follow dir root ++ names) ∧
        ∀ (w : Workspace) (content : String),
          ChangedAt names w (w.upload path content).2 ∧
          ((w.upload path content).1 = .ok () →
            (w.upload path content).2.file? names = some content) ∧
          ∀ other, (w.upload path content).1 ≠ .error (.invalidPath other)) ∧
      (FilePath.inside? path = none → ∀ (w : Workspace) (content : String),
        w.upload path content = (.error (.invalidPath path), w)) := by
  refine ⟨FilePath.segments path, fun others => FilePath.segmented_iff, ?_, ?_, ?_⟩
  · rw [Option.isSome_iff_exists]
    simp only [FilePath.inside?_eq_some_iff, exists_and_left, exists_eq, and_true]
    exact and_congr_left fun _ => by simp [FilePath.isAbsolute]
  · intro names inside
    obtain ⟨⟨-, -, named⟩, names_eq⟩ := FilePath.inside?_eq_some_iff.mp inside
    refine ⟨names_eq, ?_, FilePath.filter_components_join inside, FilePath.follow_join inside,
      fun w content => ?_⟩
    · rw [names_eq]
      exact List.map_eq_nil_iff.not.mpr named
    · obtain ⟨changed, taken⟩ := changedAt_upload inside w content
      refine ⟨changed, fun done => ?_, taken⟩
      obtain ⟨place, inside', written⟩ := file?_upload (Prod.ext done rfl)
      obtain rfl := Option.some.inj (inside.symm.trans inside')
      rw [written names, if_pos rfl]
  · intro refused w content
    rw [upload, refused]

end Workspace
end AgentWorkbench
