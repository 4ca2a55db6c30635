import AgentWorkbench.Proofs.Extraction.Unlined

/-!
Edits of a source that leave its graph as it is. Statements may be moved with all their texts, and
statements that define no function and bind no client may come and go; so may a function that no
registration names. The lines that an error quotes are then all that can change.
-/
namespace AgentWorkbench.Extraction

open Python

/-! Registrations without lines. -/

def Registered.unlined (r : Registered) : Registered :=
  { r with first := r.first.unlined, second := r.second.unlined }

/-- The error with line 0 in its message. -/
def ExtractError.unlined : ExtractError → ExtractError
  | .invalidSyntax => .invalidSyntax
  | .missingArgument registration _ got => .missingArgument registration 0 got

/-- Errors that differ in their lines at most. -/
def SameButLine {α : Type} (x y : Except ExtractError α) : Prop :=
  x.mapError ExtractError.unlined = y.mapError ExtractError.unlined

theorem SameButLine.trans {α : Type} {x y z : Except ExtractError α} (h : SameButLine x y)
    (h' : SameButLine y z) : SameButLine x z :=
  Eq.trans h h'

/-- Only in the error of a missing argument is there a line. -/
theorem SameButLine.eq_or {α : Type} {x y : Except ExtractError α} (h : SameButLine x y) :
    x = y ∨ ∃ registration line line' got,
      x = .error (.missingArgument registration line got) ∧
        y = .error (.missingArgument registration line' got) := by
  match x, y, h with
  | .ok a, .ok b, h => exact .inl (congrArg _ (Except.ok.inj h))
  | .error .invalidSyntax, .error .invalidSyntax, _ => exact .inl rfl
  | .error (.missingArgument _ line got), .error (.missingArgument _ line' got'), h =>
    obtain ⟨rfl, -, rfl⟩ := ExtractError.missingArgument.inj (Except.error.inj h)
    exact .inr ⟨_, _, _, _, rfl, rfl⟩

theorem registered?_unlined (call : Call) : registered? call.unlined =
    ((registered? call).mapError ExtractError.unlined).map (Option.map Registered.unlined) := by
  rw [registered?, registered?, Call.method?_unlined]
  cases call.method?.bind Registration.ofMethod? with
  | none => rfl
  | some registration =>
    obtain ⟨line, callee, args, keywords⟩ := call
    obtain _ | ⟨first, _ | ⟨second, more⟩⟩ := args <;> rfl

theorem registrations_unlined (calls : List Call) : registrations (calls.map Call.unlined) =
    ((registrations calls).mapError ExtractError.unlined).map (List.map Registered.unlined) := by
  induction calls with
  | nil => rfl
  | cons call calls ih =>
    rw [List.map_cons, registrations_cons_eq, registrations_cons_eq, registered?_unlined, ih]
    cases registered? call with
    | error e => rfl
    | ok found =>
      cases registrations calls with
      | error e => rfl
      | ok more => cases found <;> rfl

/-- What is registered are arguments of the calls. -/
theorem mem_registrations {calls : List Call} {found : List Registered}
    (h : registrations calls = .ok found) : ∀ r ∈ found, ∃ call ∈ calls, r.second ∈ call.args := by
  induction calls generalizing found with
  | nil =>
    cases h
    exact List.forall_mem_nil _
  | cons call calls ih =>
    rw [registrations_cons_eq] at h
    cases later : registrations calls with
    | error e =>
      rw [later] at h
      cases first : registered? call <;> rw [first] at h <;> cases h
    | ok more =>
      have among : ∀ r ∈ more, ∃ c ∈ call :: calls, r.second ∈ c.args := fun r mem =>
        let ⟨c, inside, arg⟩ := ih later r mem
        ⟨c, List.mem_cons_of_mem _ inside, arg⟩
      obtain ⟨-, registered⟩ | ⟨_, -, ⟨first, second, rest, args, registered⟩ | ⟨-, failed⟩⟩ :=
        registered?_cases call
      · rw [registered, later] at h
        cases h
        exact among
      · rw [registered, later] at h
        cases h
        refine List.forall_mem_cons.mpr ⟨⟨call, List.mem_cons_self, ?_⟩, among⟩
        rw [args]
        exact List.mem_cons_of_mem _ List.mem_cons_self
      · rw [failed] at h
        cases h

theorem register_unlined (tree : SourceTree) (g : PipelineGraph) (r : Registered) :
    register tree g r.unlined = register tree g r := by
  have handler (functions : List Function) :
      handler? functions r.second.unlined = handler? functions r.second := by
    rw [handler?, handler?, Expr.name?_unlined]
  simp only [register, Registered.unlined, nodeOf, edgeTarget, Expr.identifier_unlined, handler]

/-! Edits. -/

/-- A statement from which nothing is recovered, if no function of this name is asked for. -/
inductive Unheeded (ignored : String) (n : Node) : Prop
  | statement (kind : n.kind = .statement)
  | function (kind : n.kind = .function ignored false)

/-- The statements of two sources: those that are kept have the texts that they had, and the other
ones are not heeded. -/
inductive Edited (tree tree' : SourceTree) (ignored : String) : List Node → List Node → Prop
  | nil : Edited tree tree' ignored [] []
  | keep {n : Node} {ns ns' : List Node} (d : Nat) : SameTexts tree tree' d n →
    Edited tree tree' ignored ns ns' → Edited tree tree' ignored (n :: ns) (n.moved d :: ns')
  | drop {n : Node} {ns ns' : List Node} : Unheeded ignored n →
    Edited tree tree' ignored ns ns' → Edited tree tree' ignored (n :: ns) ns'
  | add {n' : Node} {ns ns' : List Node} : Unheeded ignored n' →
    Edited tree tree' ignored ns ns' → Edited tree tree' ignored ns (n' :: ns')

/-- A function of the one source as it stands in the other. -/
def Carried (tree tree' : SourceTree) (f f' : Function) : Prop :=
  ∃ d, f' = f.moved d ∧ SameTexts tree tree' d f.node

variable {tree tree' : SourceTree} {ignored : String} {n : Node} {ns ns' : List Node}

theorem Unheeded.moved (h : Unheeded ignored n) (d : Nat) : Unheeded ignored (n.moved d) := by
  cases h with
  | statement kind => exact .statement ((n.kind_moved d).trans kind)
  | function kind => exact .function ((n.kind_moved d).trans kind)

theorem Unheeded.functionOf? (h : Unheeded ignored n) (tree : SourceTree) :
    ∀ f ∈ tree.functionOf? n, f.name = ignored := by
  intro f found
  rw [Option.mem_def, SourceTree.functionOf?, Option.map_eq_some_iff] at found
  obtain ⟨⟨name, definition⟩, found, rfl⟩ := found
  rw [Node.functionDefinition?] at found
  cases h with
  | statement kind =>
    simp only [kind, reduceCtorEq, if_false] at found
  | function kind =>
    simp only [kind, reduceCtorEq, if_false, Option.some.injEq, Prod.mk.injEq] at found
    exact found.1.symm

theorem Unheeded.bindingsOf (h : Unheeded ignored n) (tree : SourceTree) :
    bindingsOf tree n = [] := by
  have none_bound : tree.callAssignment? n = none := by
    cases h with
    | statement kind | function kind => simp only [SourceTree.callAssignment?, kind]
  rw [Extraction.bindingsOf, none_bound]

theorem functionOf?_mem_preorder {f : Function} (h : tree.functionOf? n = some f) :
    f.node ∈ n.preorder := by
  rw [SourceTree.functionOf?, Option.map_eq_some_iff] at h
  obtain ⟨⟨name, definition⟩, found, rfl⟩ := h
  exact Node.functionDefinition?_mem_preorder found

namespace Edited

theorem keep_append {d : Nat} {kept : List Node} (same : ∀ n ∈ kept, SameTexts tree tree' d n)
    (h : Edited tree tree' ignored ns ns') :
    Edited tree tree' ignored (kept ++ ns) (kept.map (Node.moved d) ++ ns') := by
  induction kept with
  | nil => exact h
  | cons n kept ih =>
    obtain ⟨here, later⟩ := List.forall_mem_cons.mp same
    exact .keep d here (ih later)

theorem add_append {added : List Node} (unheeded : ∀ n ∈ added, Unheeded ignored n)
    (h : Edited tree tree' ignored ns ns') : Edited tree tree' ignored ns (added ++ ns') := by
  induction added with
  | nil => exact h
  | cons n added ih =>
    obtain ⟨here, later⟩ := List.forall_mem_cons.mp unheeded
    exact .add here (ih later)

/-- The functions with other names are carried over. -/
theorem functions (h : Edited tree tree' ignored ns ns') :
    List.Forall₂ (Carried tree tree') ((ns.filterMap tree.functionOf?).filter (·.name ≠ ignored))
      ((ns'.filterMap tree'.functionOf?).filter (·.name ≠ ignored)) := by
  have dropped (tree : SourceTree) (n : Node) (ns : List Node) (unheeded : Unheeded ignored n) :
      ((n :: ns).filterMap tree.functionOf?).filter (·.name ≠ ignored) =
        (ns.filterMap tree.functionOf?).filter (·.name ≠ ignored) := by
    cases found : tree.functionOf? n with
    | none => rw [List.filterMap_cons_none found]
    | some f =>
      rw [List.filterMap_cons_some found, List.filter_cons_of_neg]
      simpa using unheeded.functionOf? tree f found
  induction h with
  | nil => exact .nil
  | @keep n ns ns' d same _ ih =>
    have found' := SourceTree.functionOf?_moved same
    cases found : tree.functionOf? n with
    | none =>
      rw [found] at found'
      rwa [List.filterMap_cons_none found, List.filterMap_cons_none found']
    | some f =>
      rw [found] at found'
      rw [List.filterMap_cons_some found, List.filterMap_cons_some found', List.filter_cons,
        List.filter_cons]
      change List.Forall₂ _ _ (if decide (f.name ≠ ignored) = true then _ else _)
      split
      · exact .cons ⟨d, rfl, same.below (functionOf?_mem_preorder found)⟩ ih
      · exact ih
  | drop unheeded _ ih => rwa [dropped tree _ _ unheeded]
  | add unheeded _ ih => rwa [dropped tree' _ _ unheeded]

/-- The clients are bound to the models that they were bound to. -/
theorem bindings (h : Edited tree tree' ignored ns ns') :
    ns'.flatMap (bindingsOf tree') = ns.flatMap (bindingsOf tree) := by
  induction h with
  | nil => rfl
  | keep d same _ ih => rw [List.flatMap_cons, List.flatMap_cons, bindingsOf_moved same, ih]
  | drop unheeded _ ih => rw [List.flatMap_cons, unheeded.bindingsOf, List.nil_append, ih]
  | add unheeded _ ih => rw [List.flatMap_cons, unheeded.bindingsOf, List.nil_append, ih]

end Edited

theorem Edited.of_inserted {above added below : List Node} {d : Nat}
    (h : Inserted tree tree' above added below d) (unheeded : ∀ n ∈ added, Unheeded ignored n) :
    Edited tree tree' ignored tree.root.children tree'.root.children := by
  have rest := Edited.add_append unheeded (.keep_append h.text_below .nil)
  have whole := Edited.keep_append (d := 0) (fun n mem m inside => by
    rw [Node.moved_zero]
    exact h.text_above n mem m inside) rest
  rwa [Node.map_moved_zero, List.append_nil, List.append_nil, ← h.before, ← h.after] at whole

theorem Edited.moved {whole whole' : SourceTree} {a : Nat} (h : Edited tree tree' ignored ns ns')
    (same : ∀ n, whole.text (n.moved a) = tree.text n)
    (same' : ∀ n, whole'.text (n.moved a) = tree'.text n) :
    Edited whole whole' ignored (ns.map (Node.moved a)) (ns'.map (Node.moved a)) := by
  induction h with
  | nil => exact .nil
  | @keep n _ _ d texts _ ih =>
    have later := Edited.keep (n := n.moved a) d (fun m inside => ?_) ih
    · rwa [Node.moved_moved, Nat.add_comm a, ← Node.moved_moved] at later
    · rw [Node.preorder_moved, List.mem_map] at inside
      obtain ⟨m, inside, rfl⟩ := inside
      rw [Node.moved_moved, Nat.add_comm, ← Node.moved_moved, same', same, texts m inside]
  | drop unheeded _ ih => exact .drop (unheeded.moved a) ih
  | add unheeded _ ih => exact .add (unheeded.moved a) ih

/-- An edit of what stands behind a source is one of the whole. -/
theorem parse?_edited {front more more' : List Char} {ts : List Token}
    {front_tree more_tree more_tree' : SourceTree} (joins : Joins front more ts)
    (joins' : Joins front more' ts) (hfront : SourceTree.parse? front = some front_tree)
    (hmore : SourceTree.parse? more = some more_tree)
    (hmore' : SourceTree.parse? more' = some more_tree')
    (edited : Edited more_tree more_tree' ignored more_tree.root.children more_tree'.root.children)
    (parsed : SourceTree.parse? (front ++ more) = some tree) :
    ∃ tree', SourceTree.parse? (front ++ more') = some tree' ∧
      Edited tree tree' ignored tree.root.children tree'.root.children := by
  obtain ⟨_, whole, children⟩ := parse?_append joins hfront hmore
  obtain rfl := Option.some.inj (parsed.symm.trans whole)
  obtain ⟨tree', whole', children'⟩ := parse?_append joins' hfront hmore'
  have front_source := source_of_parse? hfront
  have source : tree.source = front ++ more_tree.source := by
    rw [source_of_parse? parsed, source_of_parse? hmore]
  have source' : tree'.source = front ++ more_tree'.source := by
    rw [source_of_parse? whole', source_of_parse? hmore']
  refine ⟨tree', whole', ?_⟩
  rw [children, children']
  have later := edited.moved (SourceTree.text_moved source) (SourceTree.text_moved source')
  have same : ∀ n ∈ front_tree.root.children, SameTexts tree tree' 0 n := by
    intro n mem m inside
    have bound : m.stop ≤ front_tree.source.length := by
      rw [front_source]
      exact ((within_of_parse? hfront n mem) m inside).bound
    rw [← front_source] at source source'
    rw [Node.moved_zero, SourceTree.text_append source' bound, SourceTree.text_append source bound]
  have kept := later.keep_append same
  rwa [Node.map_moved_zero] at kept

/-! Functions by their names. -/

theorem find?_of_forall₂ {R : Function → Function → Prop} {fs fs' : List Function} (name : String)
    (h : List.Forall₂ R fs fs') (named : ∀ f f', R f f' → f'.name = f.name) :
    Option.Rel R (fs.find? (·.name = name)) (fs'.find? (·.name = name)) := by
  induction h with
  | nil => exact .none
  | @cons f f' fs fs' same _ ih =>
    rw [List.find?_cons, List.find?_cons, named f f' same]
    split
    · exact .some same
    · exact ih

/-- A name that is not ignored is that of a function before and behind the filter. -/
theorem find?_heeded (fs : List Function) {name : String} (other : name ≠ ignored) :
    (fs.filter (·.name ≠ ignored)).find? (·.name = name) = fs.find? (·.name = name) := by
  rw [List.find?_filter]
  congr 1
  funext f
  by_cases same : f.name = name <;> simp [same, other]

theorem Carried.name {f f' : Function} (h : Carried tree tree' f f') : f'.name = f.name := by
  obtain ⟨d, rfl, -⟩ := h
  rfl

section Graphs

variable (edited : Edited tree tree' ignored tree.root.children tree'.root.children)
include edited

theorem Edited.find? {name : String} (other : name ≠ ignored) :
    Option.Rel (Carried tree tree') (tree.functions.find? (·.name = name))
      (tree'.functions.find? (·.name = name)) := by
  rw [← find?_heeded tree.functions other, ← find?_heeded tree'.functions other]
  exact find?_of_forall₂ name edited.functions fun _ _ => Carried.name

theorem Edited.handler? {e : Expr} (other : e.name? ≠ some ignored) :
    Option.Rel (Carried tree tree') (handler? tree.functions e) (handler? tree'.functions e) := by
  rw [Extraction.handler?, Extraction.handler?]
  cases named : e.name? with
  | none => exact .none
  | some name =>
    have heeded : name ≠ ignored := fun same => other (same ▸ named)
    have reversed := (List.forall₂_reverse_iff.mpr edited.functions)
    rw [← List.filter_reverse, ← List.filter_reverse] at reversed
    have found := find?_of_forall₂ name reversed fun _ _ => Carried.name
    rwa [find?_heeded _ heeded, find?_heeded _ heeded] at found

/-- The calls of the builder are the same but for their lines. -/
theorem Edited.builderCalls (apart : builderName ≠ ignored) :
    (builderCalls tree').map Call.unlined = (builderCalls tree).map Call.unlined := by
  have found := edited.find? apart
  rw [builderName] at found
  have calls (tree : SourceTree) (node : Node) : (node.preorder.filterMap fun visited =>
      if visited.kind = .call then (tree.lower visited).call? else none) = tree.callsIn node := by
    rw [SourceTree.callsIn, Node.walk_eq_preorder]
  simp only [Extraction.builderCalls, calls]
  generalize tree.functions.find? (·.name = "create_agent") = builder at found ⊢
  generalize tree'.functions.find? (·.name = "create_agent") = builder' at found ⊢
  cases found with
  | none => rfl
  | some carried =>
    obtain ⟨d, rfl, same⟩ := carried
    exact SourceTree.unlined_callsIn same

theorem Edited.nodeOf (k : Nat) {r : Registered} (other : r.second.name? ≠ some ignored) :
    nodeOf tree' k r = nodeOf tree k r := by
  have found := edited.handler? other
  have bound : modelBindings tree' = modelBindings tree := by
    rw [modelBindings_eq, modelBindings_eq, edited.bindings]
  simp only [Extraction.nodeOf, bound]
  generalize Extraction.handler? tree.functions r.second = handler at found ⊢
  generalize Extraction.handler? tree'.functions r.second = handler' at found ⊢
  cases found with
  | none => rfl
  | some carried =>
    obtain ⟨d, rfl, same⟩ := carried
    simp only [Function.moved, prompt_moved same, model_moved same]

/-- No call of the builder has the name of the ignored function as an argument. -/
def Unnamed (ignored : String) (tree : SourceTree) : Prop :=
  ∀ call ∈ builderCalls tree, ∀ e ∈ call.args, e.name? ≠ some ignored

omit edited in
theorem name?_of_unlined {e e' : Expr} (h : e'.unlined = e.unlined) : e'.name? = e.name? := by
  rw [← Expr.name?_unlined, h, Expr.name?_unlined]

theorem Edited.unnamed (apart : builderName ≠ ignored) (unnamed : Unnamed ignored tree) :
    Unnamed ignored tree' := by
  intro call' mem' e' arg'
  have same := edited.builderCalls apart
  have among : call'.unlined ∈ (Extraction.builderCalls tree).map Call.unlined :=
    same ▸ List.mem_map_of_mem mem'
  obtain ⟨call, mem, unlined⟩ := List.mem_map.mp among
  have arg : e'.unlined ∈ call.unlined.args := by
    rw [unlined]
    exact List.mem_map_of_mem arg'
  obtain ⟨e, arg, unlined⟩ := List.mem_map.mp arg
  rw [name?_of_unlined unlined.symm]
  exact unnamed call mem e arg

/-- The graph is the same, and so is what is wrong but for its line. -/
theorem Edited.graphOf (apart : builderName ≠ ignored) (unnamed : Unnamed ignored tree) :
    SameButLine (graphOf tree') (graphOf tree) := by
  have same := congrArg registrations (edited.builderCalls apart)
  rw [registrations_unlined, registrations_unlined] at same
  rw [SameButLine, graphOf_eq, graphOf_eq]
  cases found' : registrations (Extraction.builderCalls tree') with
  | error e' =>
    cases found : registrations (Extraction.builderCalls tree) with
    | error e =>
      rw [found, found'] at same
      exact congrArg Except.error (Except.error.inj same)
    | ok rs =>
      rw [found, found'] at same
      cases same
  | ok rs' =>
    cases found : registrations (Extraction.builderCalls tree) with
    | error e =>
      rw [found, found'] at same
      cases same
    | ok rs =>
      rw [found, found'] at same
      have unlined : rs'.map Registered.unlined = rs.map Registered.unlined := Except.ok.inj same
      have folded (tree : SourceTree) (rs : List Registered) (g : PipelineGraph) :
          rs.foldl (register tree) g = (rs.map Registered.unlined).foldl (register tree) g := by
        rw [List.foldl_map]
        exact List.foldl_ext _ _ g fun g r _ => (register_unlined tree g r).symm
      have registered : rs'.foldl (register tree') {} = rs.foldl (register tree) {} := by
        rw [folded tree', unlined, ← folded tree']
        refine List.foldl_ext _ _ _ fun g r mem => ?_
        obtain ⟨call, inside, arg⟩ := mem_registrations found r mem
        rw [register, register, edited.nodeOf _ (unnamed call inside _ arg)]
      simp only [Except.map, registered]

end Graphs

end AgentWorkbench.Extraction
