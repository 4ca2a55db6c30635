import AgentWorkbench.Store.Relational
import Mathlib.Data.List.Induction

/-!
The statements of the database store, each by what it leaves in the tables, and the orders in which
rows are read.
-/
namespace AgentWorkbench.Database

section Order

variable {ρ : Type} {before : ρ → ρ → Bool}

theorem insertSorted_eq_cons {row : ρ} {sorted : List ρ} (h : ∀ other ∈ sorted, before row other) :
    insertSorted before row sorted = row :: sorted := by
  cases sorted with
  | nil => rfl
  | cons other rest => rw [insertSorted, if_pos (h other (List.mem_cons_self ..))]

theorem insertSorted_eq_append {row : ρ} {sorted : List ρ}
    (h : ∀ other ∈ sorted, before row other = false) :
    insertSorted before row sorted = sorted ++ [row] := by
  induction sorted with
  | nil => rfl
  | cons other rest ih =>
      rw [insertSorted, if_neg (by simp [h other (List.mem_cons_self ..)]),
        ih fun row mem => h row (List.mem_cons_of_mem _ mem)]
      rfl

/-- Rows of which each comes before those inserted earlier are read in the reverse of their
order. -/
theorem orderBy_eq_reverse {rows : List ρ} (h : rows.Pairwise fun a b => before b a = true) :
    orderBy before rows = rows.reverse := by
  have fold (sorted : List ρ) (all : ∀ other ∈ sorted, ∀ row ∈ rows, before row other = true) :
      rows.foldl (fun sorted row => insertSorted before row sorted) sorted =
        rows.reverse ++ sorted := by
    induction rows generalizing sorted with
    | nil => rfl
    | cons row rest ih =>
        obtain ⟨first, later⟩ := List.pairwise_cons.mp h
        rw [List.foldl_cons, insertSorted_eq_cons fun other mem => all other mem row (by simp),
          ih later, List.reverse_cons, List.append_assoc]
        · rfl
        · intro other mem row' mem'
          obtain rfl | mem := List.mem_cons.mp mem
          · exact first row' mem'
          · exact all other mem row' (List.mem_cons_of_mem _ mem')
  rw [orderBy, fold [] (by simp), List.append_nil]

/-- Rows of which none comes before one inserted earlier are read in their order. -/
theorem orderBy_eq_self {rows : List ρ} (h : rows.Pairwise fun a b => before b a = false) :
    orderBy before rows = rows := by
  have fold (sorted : List ρ) (all : ∀ other ∈ sorted, ∀ row ∈ rows, before row other = false) :
      rows.foldl (fun sorted row => insertSorted before row sorted) sorted = sorted ++ rows := by
    induction rows generalizing sorted with
    | nil => simp
    | cons row rest ih =>
        obtain ⟨first, later⟩ := List.pairwise_cons.mp h
        rw [List.foldl_cons, insertSorted_eq_append fun other mem => all other mem row (by simp),
          ih later, List.append_assoc]
        · rfl
        · intro other mem row' mem'
          obtain mem | mem := List.mem_append.mp mem
          · exact all other mem row' (List.mem_cons_of_mem _ mem')
          · obtain rfl := List.mem_singleton.mp mem
            exact first row' mem'
  rw [orderBy, fold [] (by simp), List.nil_append]

/-- A new row goes somewhere among the others, whose order stays. -/
theorem exists_insertSorted (before : ρ → ρ → Bool) (row : ρ) (sorted : List ρ) :
    ∃ front back, sorted = front ++ back ∧
      insertSorted before row sorted = front ++ row :: back := by
  induction sorted with
  | nil => exact ⟨[], [], rfl, rfl⟩
  | cons other rest ih =>
      rw [insertSorted]
      split
      · exact ⟨[], other :: rest, rfl, rfl⟩
      · obtain ⟨front, back, rfl, inserted⟩ := ih
        exact ⟨other :: front, back, rfl, by rw [inserted, List.cons_append]⟩

theorem insertSorted_perm (row : ρ) (sorted : List ρ) :
    (insertSorted before row sorted).Perm (row :: sorted) := by
  obtain ⟨front, back, rfl, inserted⟩ := exists_insertSorted before row sorted
  rw [inserted]
  exact List.perm_middle

theorem orderBy_append (rows : List ρ) (row : ρ) :
    orderBy before (rows ++ [row]) = insertSorted before row (orderBy before rows) := by
  rw [orderBy, List.foldl_append]
  rfl

theorem orderBy_perm (rows : List ρ) : (orderBy before rows).Perm rows := by
  induction rows using List.reverseRecOn with
  | nil => exact .refl _
  | append_singleton rows row ih =>
      rw [orderBy_append]
      exact (insertSorted_perm row _).trans
        ((ih.cons row).trans (List.perm_append_singleton row rows).symm)

theorem map_insertSorted {τ : Type} {view : ρ → τ} {before' : τ → τ → Bool}
    (same : ∀ a b, before a b = before' (view a) (view b)) (row : ρ) (sorted : List ρ) :
    (insertSorted before row sorted).map view =
      insertSorted before' (view row) (sorted.map view) := by
  induction sorted with
  | nil => rfl
  | cons other rest ih =>
      rw [insertSorted, List.map_cons, insertSorted, ← same]
      split
      · rfl
      · rw [List.map_cons, ih]

theorem map_orderBy {τ : Type} {view : ρ → τ} {before' : τ → τ → Bool}
    (same : ∀ a b, before a b = before' (view a) (view b)) (rows : List ρ) :
    (orderBy before rows).map view = orderBy before' (rows.map view) := by
  induction rows using List.reverseRecOn with
  | nil => rfl
  | append_singleton rows row ih =>
      rw [orderBy_append, map_insertSorted same, ih, List.map_append, List.map_singleton,
        orderBy_append]

/-- Rows are read in an order in which none comes behind one that it precedes. -/
theorem orderBy_pairwise (irrefl : ∀ a, before a a = false)
    (trans : ∀ a b c, before a b = true → before b c = true → before a c = true) (rows : List ρ) :
    (orderBy before rows).Pairwise fun a b => before b a = false := by
  have asymm {a b : ρ} (h : before a b = true) : before b a = false := by
    by_contra h'
    have := trans a b a h (by simpa using h')
    rw [irrefl] at this
    cases this
  have inserted (row : ρ) {sorted : List ρ} (h : sorted.Pairwise fun a b => before b a = false) :
      (insertSorted before row sorted).Pairwise fun a b => before b a = false := by
    induction sorted with
    | nil => exact List.pairwise_singleton _ _
    | cons other rest ih =>
        obtain ⟨first, later⟩ := List.pairwise_cons.mp h
        rw [insertSorted]
        split
        · next precedes =>
            refine List.pairwise_cons.mpr ⟨List.forall_mem_cons.mpr ⟨asymm precedes, ?_⟩, h⟩
            intro last mem
            by_contra h'
            have := trans last row other (by simpa using h') precedes
            rw [first last mem] at this
            cases this
        · next not_first =>
            refine List.pairwise_cons.mpr ⟨fun last mem => ?_, ih later⟩
            obtain rfl | mem := List.mem_cons.mp ((insertSorted_perm row rest).subset mem)
            · simpa using not_first
            · exact first last mem
  induction rows using List.reverseRecOn with
  | nil => exact .nil
  | append_singleton rows row ih =>
      rw [orderBy_append]
      exact inserted row ih

end Order

/-- The rows of a sheet's files, at positions counted from the first one's. -/
def fileRows (sheet : SheetId) : (position : Nat) → List SourceFile → List FileRow
  | _, [] => []
  | position, file :: rest => { sheet, position, file } :: fileRows sheet (position + 1) rest

theorem map_file_fileRows (sheet : SheetId) (position : Nat) (files : List SourceFile) :
    (fileRows sheet position files).map (·.file) = files := by
  induction files generalizing position with
  | nil => rfl
  | cons file rest ih => rw [fileRows, List.map_cons, ih]

theorem length_fileRows (sheet : SheetId) (position : Nat) (files : List SourceFile) :
    (fileRows sheet position files).length = files.length := by
  rw [← List.length_map, map_file_fileRows]

theorem mem_fileRows {sheet : SheetId} {position : Nat} {files : List SourceFile} {row : FileRow}
    (h : row ∈ fileRows sheet position files) : row.sheet = sheet ∧ position ≤ row.position := by
  induction files generalizing position with
  | nil => cases h
  | cons file rest ih =>
      obtain rfl | h := List.mem_cons.mp h
      · exact ⟨rfl, Nat.le_refl _⟩
      · obtain ⟨same, le⟩ := ih h
        exact ⟨same, by omega⟩

theorem orderBy_fileRows (sheet : SheetId) (position : Nat) (files : List SourceFile) :
    orderBy (fun a b => a.position < b.position) (fileRows sheet position files) =
      fileRows sheet position files := by
  refine orderBy_eq_self ?_
  induction files generalizing position with
  | nil => exact .nil
  | cons file rest ih =>
      refine .cons (fun row mem => ?_) (ih _)
      have := (mem_fileRows mem).2
      simp only [decide_eq_false_iff_not]
      omega

/-- The files table once a sheet's files are written anew. -/
def rewritten (rows : List FileRow) (sheet : SheetId) (files : List SourceFile) : List FileRow :=
  rows.filter (·.sheet ≠ sheet) ++ fileRows sheet 0 files

theorem filter_rewritten (rows : List FileRow) (sheet other : SheetId) (files : List SourceFile) :
    (rewritten rows sheet files).filter (·.sheet = other) =
      if other = sheet then fileRows sheet 0 files else rows.filter (·.sheet = other) := by
  rw [rewritten, List.filter_append, List.filter_filter]
  split
  · next same =>
      subst same
      rw [List.filter_eq_nil_iff.mpr (by simp), List.nil_append, List.filter_eq_self]
      intro row mem
      simpa using (mem_fileRows mem).1
  · next other_ne =>
      have none_written : (fileRows sheet 0 files).filter (·.sheet = other) = [] :=
        List.filter_eq_nil_iff.mpr fun row mem => by
          simpa [(mem_fileRows mem).1] using Ne.symm other_ne
      rw [none_written, List.append_nil]
      refine List.filter_congr fun row _ => ?_
      by_cases there : row.sheet = other <;> simp [there, other_ne]

theorem insertFiles_run (sheet : SheetId) (position : Nat) (files : List SourceFile)
    (db : Database) :
    insertFiles sheet position files db =
      .ok ((), { db with files := db.files ++ fileRows sheet position files }) := by
  induction files generalizing position db with
  | nil =>
      rw [fileRows, List.append_nil]
      rfl
  | cons file rest ih =>
      change insertFiles sheet (position + 1) rest _ = _
      rw [ih, fileRows]
      simp

theorem writeFiles_run (sheet : SheetId) (files : List SourceFile) (db : Database) :
    writeFiles sheet files db = .ok ((), { db with files := rewritten db.files sheet files }) := by
  change insertFiles sheet 0 files _ = _
  rw [insertFiles_run]
  rfl

/-- A transaction makes its change whole or, where its condition is not met, not at all. -/
theorem transaction_of_ite {α : Type} {statements : Statements α} {db changed : Database}
    {condition : Bool} {a : α} {e : StorageError}
    (run : statements db = if condition then .ok (a, changed) else .error e) :
    db.transaction statements = if condition then (.ok a, changed) else (.error e, db) := by
  rw [transaction, run]
  cases condition <;> rfl

theorem apply_createSheet (db : Database) (id : SheetId) (playground : PlaygroundId)
    (title : String) (files : List SourceFile) :
    db.apply (.createSheet id playground title files) =
      (.ok id, { db with
        sheets := db.sheets ++ [{ id, playground, title }]
        files := rewritten db.files id files }) := by
  have statements : (do
      insertSheet { id, playground, title }
      writeFiles id files
      return id : Statements SheetId) db = .ok (id, { db with
        sheets := db.sheets ++ [{ id, playground, title }]
        files := rewritten db.files id files }) := by
    simp only [bind, StateT.bind, Except.bind, insertSheet, writeFiles_run]
    rfl
  rw [apply, transaction, statements]

theorem apply_replaceFiles (db : Database) (id : SheetId) (playground : PlaygroundId)
    (files : List SourceFile) :
    db.apply (.replaceFiles id playground files) =
      if db.sheets.any (fun row => row.id = id && row.playground = playground) then
        (.ok (), { db with files := rewritten db.files id files })
      else (.error (.sheetNotFound id), db) := by
  refine transaction_of_ite ?_
  have required : requireSheet id (some playground) db =
      if db.sheets.any (fun row => row.id = id && row.playground = playground) then .ok ((), db)
      else .error (.sheetNotFound id) := rfl
  simp only [bind, StateT.bind, Except.bind, required]
  cases db.sheets.any fun row => row.id = id && row.playground = playground with
  | false => rfl
  | true => exact writeFiles_run id files db

theorem apply_saveGraph (db : Database) (id : SheetId) (graph : PipelineGraph) :
    db.apply (.saveGraph id graph) =
      if db.sheets.any (·.id = id) then
        (.ok (), { db with sheets := db.sheets.map fun row =>
          if row.id = id then { row with graph := some graph.compact } else row })
      else (.error (.sheetNotFound id), db) :=
  transaction_of_ite rfl

theorem apply_insertRun (db : Database) (now : Int) (run : RunRecord) :
    db.apply (.insertRun now run) =
      if db.sheets.any (·.id = run.sheet) then
        (.ok (db.runSequence + 1),
          { db with
            runs := db.runs ++ [{
              id := db.runSequence + 1
              sheet := run.sheet
              output := run.output
              timings := run.timings.map Json.compact
              exitCode := run.exitCode
              createdAt := JulianDay.currentTimestamp now }]
            runSequence := db.runSequence + 1 })
      else (.error (.sheetNotFound run.sheet), db) := by
  refine transaction_of_ite ?_
  have required : requireSheet run.sheet none db =
      if db.sheets.any (·.id = run.sheet) then .ok ((), db)
      else .error (.sheetNotFound run.sheet) := by simp [requireSheet]
  simp only [bind, StateT.bind, Except.bind, required]
  cases db.sheets.any (·.id = run.sheet) <;> rfl

end AgentWorkbench.Database
