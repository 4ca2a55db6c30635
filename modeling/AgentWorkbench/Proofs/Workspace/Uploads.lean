import AgentWorkbench.Proofs.Instrument.Idempotence
import AgentWorkbench.Proofs.Session.History
import AgentWorkbench.Workspace.Basic

/-!
What lies in a workspace once a session has uploaded its files: at each path the content that was
uploaded there last. The entry file is looked up by its name, and its place in the workspace by its
path, so a later file that leads to the same place takes the place of the program.
-/
namespace AgentWorkbench
namespace Workspace

/-- Uploads files in their order, up to the first that cannot be. -/
def uploadAll (w : Workspace) : List SourceFile → Except WorkerError Unit × Workspace
  | [] => (.ok (), w)
  | file :: rest =>
    match w.upload file.filename file.code with
    | (.error e, w) => (.error e, w)
    | (.ok (), w) => w.uploadAll rest

def content? (w : Workspace) (path : String) : Option String :=
  (FilePath.inside? path).bind w.file?

@[simp] theorem file?_makeDirectories (w : Workspace) (done names : List String) :
    (w.makeDirectories done names).2.file? = w.file? := by
  fun_induction makeDirectories w done names with
  | case1 | case2 | case3 => rfl
  | case4 _ _ _ _ _ _ _ _ ih | case5 _ _ _ _ _ _ _ _ ih => exact ih

theorem file?_setFile (w : Workspace) (names other : List String) (content : String) :
    (w.setFile names content).file? other =
      if other = names then some content else w.file? other := by
  rw [setFile]
  split
  · next there =>
      have kept : ((fun file : List String × String => decide (file.1 = other)) ∘
          fun (path, old) => if path = names then (path, content) else (path, old)) =
          fun file => decide (file.1 = other) := by
        funext ⟨path, old⟩
        by_cases h : path = names <;> simp [h]
      rw [file?, List.find?_map, kept]
      cases found : w.files.find? (·.1 = other) with
      | none =>
          have : other ≠ names := by
            rintro rfl
            simp [isFile, file?, found] at there
          simp [this, file?, found]
      | some file =>
          have : file.1 = other := by simpa using List.find?_some found
          by_cases same : other = names <;> simp [this, same, file?, found]
  · next absent =>
      have absent : w.files.find? (·.1 = names) = none := by
        simpa only [isFile, file?, Option.isSome_map, Option.not_isSome_iff_eq_none] using absent
      rw [file?, List.find?_append]
      by_cases same : other = names
      · subst same
        simp [absent]
      · simp [same, file?, Ne.symm same]

/-- An upload that succeeds changes what its path leads to, and nothing else. -/
theorem file?_upload {w w' : Workspace} {path content : String}
    (h : w.upload path content = (.ok (), w')) :
    ∃ names, FilePath.inside? path = some names ∧
      ∀ other, w'.file? other = if other = names then some content else w.file? other := by
  rw [upload] at h
  cases inside : FilePath.inside? path with
  | none => simp [inside] at h
  | some names =>
      refine ⟨names, rfl, fun other => ?_⟩
      simp only [inside] at h
      generalize made : (if names.dropLast.any FilePath.hasNul then
        (Except.error FileError.nulInPath, w) else w.makeDirectories [] names.dropLast) = below at h
      have kept : below.2.file? = w.file? := by
        rw [← made]
        split
        · rfl
        · exact file?_makeDirectories w _ _
      obtain ⟨_ | _, w₁⟩ := below
      · simp at h
      · rw [write] at h
        cases refused : w₁.writeError? path names with
        | some e => simp [refused] at h
        | none =>
            simp only [refused, Prod.mk.injEq, true_and] at h
            rw [← h, file?_setFile, kept]

/-- The files that lead to a place. -/
def landing (files : List SourceFile) (names : List String) : List SourceFile :=
  files.filter (FilePath.inside? ·.filename = some names)

theorem getLast?_landing {front rest : List SourceFile} {file : SourceFile} {names : List String}
    (h : FilePath.inside? file.filename = some names) :
    (landing (front ++ file :: rest) names).getLast? =
      (landing rest names).getLast?.or (some file) := by
  rw [landing, List.filter_append, List.filter_cons, if_pos (by simpa using h), ← landing, ← landing,
    List.getLast?_append, List.getLast?_cons]
  cases (landing rest names).getLast? <;> rfl

theorem file?_uploadAll {w w' : Workspace} {files : List SourceFile}
    (h : w.uploadAll files = (.ok (), w')) (names : List String) :
    w'.file? names = ((landing files names).getLast?.map (·.code)).or (w.file? names) := by
  induction files generalizing w with
  | nil =>
      cases h
      rfl
  | cons file rest ih =>
      rw [uploadAll] at h
      split at h
      · cases h
      · next w₁ uploaded =>
          obtain ⟨place, inside, file_eq⟩ := file?_upload uploaded
          rw [ih h, file_eq, landing, landing, List.filter_cons, inside]
          by_cases same : names = place
          · subst same
            simp [List.getLast?_cons]
          · simp [same, Ne.symm same]

theorem exists_inside?_of_uploadAll {w w' : Workspace} {files : List SourceFile}
    (h : w.uploadAll files = (.ok (), w')) {file : SourceFile} (mem : file ∈ files) :
    ∃ names, FilePath.inside? file.filename = some names := by
  induction files generalizing w with
  | nil => cases mem
  | cons first rest ih =>
      rw [uploadAll] at h
      split at h
      · cases h
      · next uploaded =>
          cases mem with
          | head =>
              obtain ⟨names, inside, -⟩ := file?_upload uploaded
              exact ⟨names, inside⟩
          | tail _ mem => exact ih h mem

end Workspace

/-- What a session uploads as its program, from the code of the entry file. -/
def Config.launchedCode (config : Config) (code : String) : String :=
  match config.graphMode with
  | .runtime => instrument code
  | .static => code

namespace RunPlan

/-- The files behind the first one of a name. -/
def behind (name : String) : List SourceFile → List SourceFile
  | [] => []
  | file :: rest => if file.filename = name then rest else behind name rest

/-- The files behind the entry file that lead to its place in the workspace. -/
def overwriting (files : List SourceFile) (entry : SourceFile) : List SourceFile :=
  (behind entry.filename files).filter
    (FilePath.inside? ·.filename = FilePath.inside? entry.filename)

theorem exists_append_behind {name : String} {files : List SourceFile} {file : SourceFile}
    (h : files.find? (·.filename = name) = some file) :
    ∃ front, files = front ++ file :: behind name files ∧
      ∀ f, modifyFirst name f files = front ++ f file :: behind name files := by
  induction files with
  | nil => cases h
  | cons first rest ih =>
      by_cases here : first.filename = name
      · obtain rfl : first = file := by simpa [here] using h
        exact ⟨[], by simp [behind, here], by simp [modifyFirst, behind, here]⟩
      · obtain ⟨front, files_eq, modified⟩ := ih (by simpa [here] using h)
        refine ⟨first :: front, ?_, fun f => ?_⟩
        · rw [behind, if_neg here, List.cons_append, ← files_eq]
        · rw [modifyFirst, if_neg here, behind, if_neg here, modified, List.cons_append]

/-- In both modes the entry file is one of the uploads, with the code that is launched. -/
theorem uploads_build (config : Config) {files : List SourceFile} {entry : SourceFile}
    (h : selectEntry files .python = some entry) :
    ∃ front, (build config files .python entry.filename).uploads =
      front ++ { entry with code := config.launchedCode entry.code } ::
        behind entry.filename files := by
  obtain ⟨front, files_eq, modified⟩ := exists_append_behind (find?_selectEntry h)
  refine ⟨front, ?_⟩
  cases mode : config.graphMode with
  | runtime =>
      rw [build, mode, Config.launchedCode, mode]
      exact modified instrumentFile
  | static =>
      rw [build, mode, Config.launchedCode, mode]
      exact files_eq

/-- The program that is launched is the one that was instrumented, or whose graph was extracted,
exactly if the last of the later files that lead to the entry file's place, if there is one, holds
the same code. -/
theorem launched_content_iff {config : Config} {sheet : Sheet} {plan : RunPlan} {w : Workspace}
    (python : sheet.language? = some .python)
    (prepared : RunPlan.prepare config sheet.files = .ok plan)
    (uploaded : Workspace.uploadAll {} plan.uploads = (.ok (), w)) :
    ∃ entry, selectEntry sheet.files .python = some entry ∧
      plan.launch.args = [plan.entry] ∧ plan.entry = entry.filename ∧
      (config.graphMode = .static → plan.staticGraph = some (Extraction.extract entry.code)) ∧
      (w.content? plan.entry = some (config.launchedCode entry.code) ↔
        ∀ last ∈ (overwriting sheet.files entry).getLast?,
          last.code = config.launchedCode entry.code) := by
  obtain ⟨language, entry, known, chosen, rfl⟩ := prepare_eq_ok_iff.mp prepared
  obtain rfl : .python = language := Option.some.inj (python.symm.trans known)
  refine ⟨entry, chosen, rfl, rfl, fun static => ?_, ?_⟩
  · rw [staticGraph_build chosen, static]
    rfl
  · obtain ⟨front, uploads⟩ := uploads_build config chosen
    rw [uploads] at uploaded
    obtain ⟨names, inside⟩ := Workspace.exists_inside?_of_uploadAll uploaded
      (List.mem_append_right front (List.mem_cons_self ..))
    have later : Workspace.landing (behind entry.filename sheet.files) names =
        overwriting sheet.files entry := by
      rw [overwriting, show FilePath.inside? entry.filename = some names from inside]
      rfl
    have content : w.content? entry.filename =
        ((overwriting sheet.files entry).getLast?.map (·.code)).or
          (some (config.launchedCode entry.code)) := by
      rw [Workspace.content?, show FilePath.inside? entry.filename = some names from inside,
        Option.bind_some, Workspace.file?_uploadAll uploaded, Workspace.getLast?_landing inside, later]
      cases (overwriting sheet.files entry).getLast? <;> rfl
    change w.content? entry.filename = _ ↔ _
    rw [content]
    cases (overwriting sheet.files entry).getLast? <;> simp

/-- A sheet with two files of the entry's name; nothing keeps it from being stored. -/
def doubledSheet : Sheet where
  id := ⟨"s"⟩
  playground := ⟨"p"⟩
  title := ""
  files := [{ filename := "main.py", code := "a = 1\n", language := "python" },
    { filename := "main.py", code := "b = 2\n", language := "python" }]

theorem uploadAll_twice (first second : String) :
    Workspace.uploadAll {} [{ filename := "main.py", code := first, language := "python" },
        { filename := "main.py", code := second, language := "python" }] =
      (.ok (), { files := [(["main.py"], second)] }) := by
  have inside : FilePath.inside? "main.py" = some ["main.py"] := by decide +kernel
  have whole : FilePath.hasNul "main.py" = false ∧ FilePath.endsInDot "main.py" = false ∧
      FilePath.endsInSlash "main.py" = false ∧ FilePath.isTooLong "main.py" = false := by
    decide +kernel
  simp [Workspace.uploadAll, Workspace.upload, inside, whole, Workspace.makeDirectories,
    Workspace.write, Workspace.writeError?, Workspace.walkError?, Workspace.isDirectory,
    Workspace.setFile, Workspace.isFile, Workspace.file?]

theorem launched_content_of_doubled :
    ∃ plan w entry, doubledSheet.language? = some .python ∧
      RunPlan.prepare {} doubledSheet.files = .ok plan ∧
      Workspace.uploadAll {} plan.uploads = (.ok (), w) ∧
      selectEntry doubledSheet.files .python = some entry ∧ entry.code = "a = 1\n" ∧
      w.content? plan.entry = some "b = 2\n" ∧
      w.content? plan.entry ≠ some (Config.launchedCode {} entry.code) := by
  have python : doubledSheet.language? = some .python := by decide +kernel
  have chosen : selectEntry doubledSheet.files .python =
      some { filename := "main.py", code := "a = 1\n", language := "python" } := by decide +kernel
  have content : Workspace.content? { files := [(["main.py"], "b = 2\n")] } "main.py" =
      some "b = 2\n" := by decide +kernel
  refine ⟨build {} doubledSheet.files .python "main.py", _, _, python,
    prepare_eq_ok_iff.mpr ⟨.python, _, python, chosen, rfl⟩, uploadAll_twice _ _, chosen, rfl,
    content, fun same => ?_⟩
  have printed := Instrument.contains_routineSignature_instrument "a = 1\n"
  have : instrument "a = 1\n" = "b = 2\n" := Option.some.inj (same.symm.trans content)
  rw [this] at printed
  exact absurd printed (by decide +kernel)

/-- A program whose helper lies in a directory. -/
def helpedSheet : Sheet where
  id := ⟨"s"⟩
  playground := ⟨"p"⟩
  title := ""
  files := [{ filename := "lib/helper.py", code := "b = 2\n", language := "python" },
    { filename := "main.py", code := "a = 1\n", language := "python" }]

theorem launched_content_of_helped :
    let plan := build { graphMode := .static } helpedSheet.files .python "main.py"
    let w := (Workspace.uploadAll {} plan.uploads).2
    plan.staticGraph = some (Extraction.extract "a = 1\n") ∧
      w.content? plan.entry = some "a = 1\n" := by
  intro plan w
  have python : helpedSheet.language? = some .python := by decide +kernel
  have chosen : selectEntry helpedSheet.files .python =
      some { filename := "main.py", code := "a = 1\n", language := "python" } := by decide +kernel
  have uploaded : Workspace.uploadAll {} plan.uploads = (.ok (), w) :=
    Prod.ext (by decide +kernel) rfl
  obtain ⟨entry, selected, -, -, graph, content⟩ := launched_content_iff python
    (prepare_eq_ok_iff.mpr ⟨.python, _, python, chosen, rfl⟩) uploaded
  obtain rfl := Option.some.inj (chosen.symm.trans selected)
  exact ⟨graph rfl, content.mpr (by decide +kernel)⟩

end RunPlan
end AgentWorkbench
