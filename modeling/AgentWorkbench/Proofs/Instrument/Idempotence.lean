import AgentWorkbench.Proofs.Instrument.Boundary

/-!
Instrumenting twice is instrumenting once. Each step leaves a text alone that holds what the step
inserts: the required imports, the head of the routine, the first line of the hook. All of these
stand on one line, so the steps after it do not break them up.
-/
namespace AgentWorkbench.Instrument

open Text

theorem unbroken_of_mem_requiredImports {declaration : String}
    (h : declaration ∈ requiredImports) : '\n' ∉ declaration.toList := by
  revert declaration
  decide

theorem unbroken_routineSignature : '\n' ∉ routineSignature.toList := by
  decide

/-- The text declares the imports that the routine needs. -/
def DeclaresImports (source : List Char) : Prop :=
  ∀ declaration ∈ requiredImports, contains declaration.toList source = true

theorem injectImports_eq_self {source : List Char} (h : DeclaresImports source) :
    injectImports source = source := by
  have none_missing : missingImports source = [] := by
    refine List.filter_eq_nil_iff.mpr fun declaration required => ?_
    simp [h declaration required]
  simp [injectImports, importsInsertion?, none_missing, insertOr]

theorem declaresImports_injectImports (source : List Char) :
    DeclaresImports (injectImports source) := by
  intro declaration required
  by_cases held : contains declaration.toList source = true
  · exact contains_insertOr importsInsertion?_into (unbroken_of_mem_requiredImports required) held
  · have missing : declaration ∈ missingImports source := by
      simp [missingImports, required, held]
    have some_missing : (missingImports source).isEmpty = false := by
      rw [List.isEmpty_eq_false_iff]
      exact List.ne_nil_of_mem missing
    simp only [injectImports, importsInsertion?, some_missing, Bool.false_eq_true, ↓reduceIte,
      insertOr, Option.map_some, Option.getD_some]
    refine contains_block ?_
    have line : declaration.toList ++ ['\n'] <:+:
        (missingImports source).flatMap (·.toList ++ ['\n']) :=
      List.infix_of_mem_flatten (List.mem_map_of_mem missing)
    exact ((List.prefix_append _ _).isInfix.trans line).trans (List.suffix_append _ _).isInfix

theorem injectRoutine_eq_self {source : List Char}
    (h : contains routineSignature.toList source = true) : injectRoutine source = source := by
  simp [injectRoutine, routineInsertion?, h, insertOr]

theorem toList_routine : routine.toList = routineLines.flatMap (·.toList ++ ['\n']) := by
  rw [routine, String.toList_join, List.flatMap_map]
  simp only [String.toList_append]
  rfl

theorem routineSignature_isPrefix : routineSignature.toList <+: routine.toList := by
  obtain ⟨rest, first⟩ : ∃ rest, routineLines = (routineSignature ++ "):") :: rest := ⟨_, rfl⟩
  rw [toList_routine, first, List.flatMap_cons, String.toList_append, List.append_assoc,
    List.append_assoc]
  exact List.prefix_append _ _

theorem contains_routineSignature_injectRoutine (source : List Char) :
    contains routineSignature.toList (injectRoutine source) = true := by
  by_cases held : contains routineSignature.toList source = true
  · rwa [injectRoutine_eq_self held]
  · have made : ∃ i, routineInsertion? source = some i ∧ routine.toList <:+: i.block := by
      simp only [routineInsertion?, held, Bool.false_eq_true, ↓reduceIte]
      split
      · exact ⟨_, rfl, (List.prefix_append _ _).isInfix⟩
      · exact ⟨_, rfl, (List.suffix_append _ _).isInfix⟩
    obtain ⟨i, made, routine_in_block⟩ := made
    rw [injectRoutine, made]
    exact contains_block (routineSignature_isPrefix.isInfix.trans routine_in_block)

/-- A hook has its marker, so a text with a hook gets no second one. -/
theorem injectHook_idempotent (source : List Char) :
    injectHook (injectHook source) = injectHook source := by
  cases made : hookInsertion? source with
  | none => simp [injectHook, made, insertOr]
  | some i =>
      have marked : contains hookMarker.toList i.text = true := by
        refine contains_block ?_
        simp only [hookInsertion?, Option.bind_eq_bind, Option.bind_eq_some_iff, Option.pure_def,
          Option.some.injEq] at made
        obtain ⟨-, -, ⟨before, g⟩, -, -, -, rfl⟩ := made
        rw [hookLines, hookStatements, List.map_cons, List.flatMap_cons, String.toList_append]
        exact (List.suffix_append _ _).isInfix.trans
          ((List.suffix_cons _ _).isInfix.trans (List.prefix_append _ _).isInfix)
      have once : injectHook source = i.text := by rw [injectHook, made]; rfl
      have no_more : hookInsertion? i.text = none := by
        rw [hookInsertion?, marked]
        rfl
      rw [once, injectHook, no_more]
      rfl

theorem contains_routineSignature_instrument (source : String) :
    contains routineSignature.toList (instrument source).toList = true := by
  rw [instrument, String.toList_ofList]
  exact contains_insertOr hookInsertion?_into unbroken_routineSignature
    (contains_routineSignature_injectRoutine _)

theorem instrument_idempotent (source : String) :
    instrument (instrument source) = instrument source := by
  let withImports := injectImports source.toList
  let withRoutine := injectRoutine withImports
  have imports_declared : DeclaresImports (injectHook withRoutine) := by
    intro declaration required
    have unbroken := unbroken_of_mem_requiredImports required
    exact contains_insertOr hookInsertion?_into unbroken
      (contains_insertOr routineInsertion?_into unbroken
        (declaresImports_injectImports source.toList declaration required))
  have routine_there : contains routineSignature.toList (injectHook withRoutine) = true :=
    contains_insertOr hookInsertion?_into unbroken_routineSignature
      (contains_routineSignature_injectRoutine withImports)
  have again : injectHook (injectRoutine (injectImports (injectHook withRoutine))) =
      injectHook withRoutine := by
    rw [injectImports_eq_self imports_declared, injectRoutine_eq_self routine_there,
      injectHook_idempotent]
  rw [instrument, instrument, String.toList_ofList]
  exact congrArg String.ofList again

end AgentWorkbench.Instrument
