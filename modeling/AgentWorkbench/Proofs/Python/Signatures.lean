import AgentWorkbench.Proofs.Python.Decorated
import AgentWorkbench.Proofs.Python.Parameters

/-!
Functions with their positional parameters. A function that is read with no parameters is read with
those of a header as well, and whatever stands around it is read as before; the parameters that can
be given by position and by name are those of the header.
-/
namespace AgentWorkbench.Python

open Parse Lexer

/-! Signatures. -/

namespace Node

theorem functionDefinition?_moved (node : Node) (d : Nat) : (node.moved d).functionDefinition? =
    node.functionDefinition?.map fun (name, inner) => (name, inner.moved d) := by
  have definition : (if (node.moved d).kind = .decorated then (node.moved d).children.getLast?
      else some (node.moved d)) =
        (if node.kind = .decorated then node.children.getLast? else some node).map
          (Node.moved d) := by
    rw [Node.kind_moved, Node.children_moved, List.getLast?_map]
    split <;> rfl
  rw [functionDefinition?, functionDefinition?]
  dsimp only
  rw [definition]
  cases (if node.kind = .decorated then node.children.getLast? else some node) with
  | none => rfl
  | some inner =>
      simp only [Option.map_some, Node.kind_moved]
      split <;> rfl

/-- The parameters of a definition that can be given by position and by name. -/
def positional (definition : Node) : List String :=
  ((definition.childOfKind? .parameters).map (positionalParams [] ·.children)).getD []

/-- The name of the function that a statement defines, with its positional parameters. -/
def signature? (node : Node) : Option (String × List String) :=
  node.functionDefinition?.map fun (name, definition) => (name, definition.positional)

theorem positionalParams_moved (d : Nat) (nodes : List Node) (names : List String) :
    positionalParams names (nodes.map (moved d)) = positionalParams names nodes := by
  induction nodes generalizing names with
  | nil => rfl
  | cons node nodes ih =>
      rw [List.map_cons, positionalParams.eq_2, positionalParams.eq_2, kind_moved]
      split <;> simp only [ih]

theorem childOfKind?_moved (node : Node) (kind : NodeKind) (d : Nat) :
    (node.moved d).childOfKind? kind = (node.childOfKind? kind).map (moved d) := by
  rw [childOfKind?, childOfKind?, children_moved, List.find?_map]
  congr 2
  funext child
  simp

theorem positional_moved (definition : Node) (d : Nat) :
    (definition.moved d).positional = definition.positional := by
  rw [positional, positional, childOfKind?_moved]
  cases definition.childOfKind? .parameters with
  | none => rfl
  | some parameters =>
      simp only [Option.map_some, children_moved, positionalParams_moved]

theorem signature?_moved (node : Node) (d : Nat) : (node.moved d).signature? = node.signature? := by
  rw [signature?, signature?, functionDefinition?_moved, Option.map_map]
  congr 1
  funext x
  simp only [Function.comp_apply, positional_moved]

theorem filterMap_signature?_moved (nodes : List Node) (d : Nat) :
    (nodes.map (moved d)).filterMap signature? = nodes.filterMap signature? := by
  rw [List.filterMap_map]
  congr 1
  funext node
  exact node.signature?_moved d

theorem functionDefinition?_of_kind {node inner : Node} {name : String}
    (definition : (if node.kind = .decorated then node.children.getLast? else some node) =
      some inner) (kind : inner.kind = .function name false) :
    node.functionDefinition? = some (name, inner) := by
  simp only [functionDefinition?, definition, kind]

/-- Decorators leave a function its signature. -/
theorem signature?_decorated (decorators : List Node) {function : Node} {name : String}
    (kind : function.kind = .function name false) :
    (Node.spanning .decorated (decorators ++ [function])).signature? = function.signature? := by
  have outer : (Node.spanning .decorated (decorators ++ [function])).functionDefinition? =
      some (name, function) :=
    functionDefinition?_of_kind ((if_pos rfl).trans List.getLast?_concat) kind
  have inner : function.functionDefinition? = some (name, function) :=
    functionDefinition?_of_kind (if_neg (by simp [kind])) kind
  rw [signature?, signature?, outer, inner]

end Node

/-- The functions of a source, each by its name and its positional parameters. -/
def SourceTree.signatures (tree : SourceTree) : List (String × List String) :=
  tree.functions.map fun f => (f.name, f.params)

theorem SourceTree.signatures_eq (tree : SourceTree) :
    tree.signatures = tree.root.children.filterMap Node.signature? := by
  rw [signatures, functions, List.map_filterMap]
  congr 1
  funext node
  simp only [functionOf?, Node.signature?, Option.map_map]
  rfl

/-! A definition by its tokens. -/

namespace Grammar

variable {σ : Shift} {p p' : Goal → Parse Node} {d r n : Nat}

/-- What follows the parameters of a function. -/
def behindHeader (p : Goal → Parse Node) : Parse (List Node) := do
  let result ← (do let _ ← op "->"; return [← p .expr]) <|> pure []
  return result ++ [← suite p]

theorem behindHeader_tandem (h : Good σ p p' r n) :
    Tandem (Ahead σ d) (Alike σ d) n 0 (Node.Twins σ) (behindHeader p) (behindHeader p') :=
  (result_tandem h).bind fun _ _ result => (suite_tandem h).weaken.bind fun _ _ body =>
    .pure (List.rel_append result (.cons body .nil))

/-- The kinds of the tokens up to the parameters of a function. -/
def headKinds (name : String) : List TokenKind := [.keyword "def", .name name, .op "("]

section Header

variable {name : String} {head head' ts rest rest' us : List Token} {close close' : Token}
  {params : List Node} {node : Node}

theorem functionDefinition_header (starts : head.map (·.kind) = headKinds name)
    (ends : close.kind = .op ")")
    (h : parameters p true (ts ++ close :: rest) = some (params, close :: rest)) :
    ∃ function : List Node → Node,
      (∀ behind, (function behind).signature? = some (name, positionalParams [] params)) ∧
      functionDefinition p none (head ++ (ts ++ close :: rest)) =
        (behindHeader p rest).map fun x => (function x.1, x.2) := by
  simp only [headKinds, List.map_eq_cons_iff, List.map_eq_nil_iff] at starts
  obtain ⟨⟨_, s, e⟩, _, rfl, rfl, ⟨_, s₁, e₁⟩, _, rfl, rfl, ⟨_, s₂, e₂⟩, _, rfl, rfl, rfl⟩ := starts
  obtain ⟨_, s₃, e₃⟩ := close
  obtain rfl := ends
  refine ⟨fun behind => .onward ⟨.keyword "def", s, e⟩ (.function name false)
    (.mk .parameters s₂ e₃ params :: behind), fun _ => rfl, ?_⟩
  simp only [functionDefinition, bind_apply]
  change ((parameters p true (ts ++ ⟨.op ")", s₃, e₃⟩ :: rest)).bind _) = _
  have close : op ")" (⟨.op ")", s₃, e₃⟩ :: rest) = some (⟨.op ")", s₃, e₃⟩, rest) := rfl
  rw [h, Option.bind_some, close, Option.bind_some]
  simp only [behindHeader, bind_apply, pure_apply, Option.map_bind, Function.comp_def,
    Option.map_some]
  rfl

/-- What is behind the parameters of a definition is read in the same way behind other ones. -/
theorem functionDefinition_forward (h : Good σ p p' r n)
    (starts : head.map (·.kind) = headKinds name) (starts' : head'.map (·.kind) = headKinds name)
    (ends : close.kind = .op ")") (ends' : close'.kind = .op ")")
    (alike : Alike σ 0 rest rest') (room : rest.length ≤ n)
    (reads : parameters p' true (ts ++ close' :: rest') = some (params, close' :: rest'))
    {function : Node} (here : functionDefinition p none (head ++ close :: rest) =
      some (function, us)) : ∃ function' us',
      functionDefinition p' none (head' ++ (ts ++ close' :: rest')) = some (function', us') ∧
      (function.signature? = some (name, []) ∧
        function'.signature? = some (name, positionalParams [] params)) ∧
      Alike σ 0 us us' ∧ us.length ≤ rest.length := by
  have none_read : parameters p true ([] ++ close :: rest) = some ([], close :: rest) := by
    obtain ⟨_, s, e⟩ := close
    obtain rfl := ends
    rfl
  obtain ⟨build, signed, bare⟩ := functionDefinition_header starts ends none_read
  obtain ⟨build', signed', full⟩ := functionDefinition_header starts' ends' reads
  rw [List.nil_append, here] at bare
  cases found : behindHeader p rest with
  | none =>
      rw [found] at bare
      contradiction
  | some x =>
      rw [found] at bare
      obtain ⟨rfl, rfl⟩ := Prod.mk.inj (Option.some.inj bare)
      have some_token : rest ≠ [] := by
        rintro rfl
        cases found
      obtain ⟨absent, -⟩ | ⟨_, _, _, us', read, read', -, behind, shorter⟩ :=
        (behindHeader_tandem h ⟨some_token, alike⟩ room).cases
      · exact absurd (found.symm.trans absent) (Option.some_ne_none _)
      · obtain rfl := Option.some.inj (found.symm.trans read)
        rw [read'] at full
        exact ⟨_, us', full, ⟨signed _, signed' _⟩, behind, shorter⟩

/-- A file that starts with a function without parameters is one with those of a header as well. -/
theorem file_header (header : Header) (starts : head.map (·.kind) = headKinds name)
    (starts' : head'.map (·.kind) = headKinds name) (ends : close.kind = .op ")")
    (ends' : close'.kind = .op ")") (kinds : ts.map (·.kind) = header.lexemes.map Lexeme.kind)
    (alike : Alike σ 0 rest rest') (hrest : σ.rest = [])
    (h : file (head ++ close :: rest) = some node) : ∃ whole others,
      file (head' ++ (ts ++ close' :: rest')) = some whole ∧
      node.children.filterMap Node.signature? = (name, []) :: others ∧
      whole.children.filterMap Node.signature? =
        (name, header.ordinary.map (·.name.name)) :: others := by
  have length := alike.length_eq
  rw [hrest, List.length_nil, Nat.add_zero] at length
  obtain ⟨⟨_, s, e⟩, more, rfl, rfl, kinds_more⟩ := List.map_eq_cons_iff.mp starts
  obtain ⟨⟨_, s', e'⟩, more', rfl, rfl, kinds_more'⟩ := List.map_eq_cons_iff.mp starts'
  rw [List.cons_append] at h
  have more_length := congrArg List.length (kinds_more.trans kinds_more'.symm)
  rw [List.length_map, List.length_map] at more_length
  let full := more' ++ (ts ++ close' :: rest')
  have room : (more ++ close :: rest).length ≤ full.length := by
    simp only [full, List.length_cons, List.length_append]
    omega
  obtain ⟨fuel, deep⟩ := Nat.exists_eq_add_of_le'
    (show 7 ≤ depth (⟨.keyword "def", s', e'⟩ :: full) by simp [depth])
  have enough : 8 * ((more ++ close :: rest).length + 1) + 7 ≤ fuel := by
    simp only [depth, List.length_cons] at deep
    omega
  have shorter : rest.length ≤ (more ++ close :: rest).length := by
    simp only [List.length_append, List.length_cons]
    omega
  obtain ⟨params, param_kinds, reads⟩ := parameters_header (fuel + 1) header kinds ends' rest'
  obtain ⟨function, function', others, vs, lines, children, definition, ⟨signed, signed'⟩, later,
    twins⟩ := lines_of_definition _ _ _ h (fun fuel' enough' function us here => by
      obtain ⟨function', us', there, signed, behind, left⟩ := functionDefinition_forward
        (good_read (show 8 * rest.length + 5 ≤ fuel' by omega) (show _ ≤ fuel + 6 by omega))
        starts starts' ends ends' alike (Nat.le_refl _) reads here
      exact ⟨function', us', there, signed, behind, Nat.le_trans left shorter⟩) hrest enough room
  rw [positionalParams_header header param_kinds] at signed'
  have first : read (fuel + 7) .line (⟨.keyword "def", s', e'⟩ :: full) =
      some (.spanning .block [function'], vs) := by
    change functionDefinition _ none (⟨.keyword "def", s', e'⟩ :: full) = _ at definition
    change line (read (fuel + 6)) _ = _
    rw [line_function, definition]
    rfl
  refine ⟨_, others.filterMap Node.signature?, file_cons (deep ▸ first) (deep ▸ later), ?_, ?_⟩
  · rw [children, List.filterMap_cons_some signed]
  · change (function' :: lines.flatMap Node.children).filterMap Node.signature? = _
    rw [List.filterMap_cons_some signed', (Node.twins_iff.mp twins).1,
      Node.filterMap_signature?_moved]

end Header

end Grammar

end AgentWorkbench.Python
