import AgentWorkbench.Store.Faulty

/-!
Reading a sheet changes nothing of a store. The two backends are such stores, and stay so where some
of their methods fail.
-/
namespace AgentWorkbench

class StableReads (σ : Type) [SheetStore σ] : Prop where
  apply_getSheet : ∀ (sheet : SheetId) (playground : PlaygroundId) (store : σ),
    (SheetStore.apply (.getSheet sheet playground) store).2 = store

instance : StableReads InMemoryStore where
  apply_getSheet sheet playground store := by
    simp only [SheetStore.apply, InMemoryStore.apply]
    split <;> rfl

instance : StableReads Database where
  apply_getSheet _ _ _ := rfl

instance : StableReads AnyStore where
  apply_getSheet sheet playground store := by
    cases store with
    | inMemory store =>
        exact congrArg AnyStore.inMemory (StableReads.apply_getSheet sheet playground store)
    | relational db =>
        exact congrArg AnyStore.relational (StableReads.apply_getSheet sheet playground db)

instance {σ : Type} [SheetStore σ] [StableReads σ] : StableReads (FaultyStore σ) where
  apply_getSheet sheet playground s := by
    have same := StableReads.apply_getSheet sheet playground s.store
    simp only [SheetStore.apply, FaultyStore.apply]
    split
    · rfl
    · rw [same]

end AgentWorkbench
