import AgentWorkbench.Proofs.Python.Walk
import AgentWorkbench.Python.Expr

/-!
The loop that visits what is below a node. It holds nothing but a cursor, which it moves to the
first child, the next sibling or the parent. It ends, and the nodes that it visits are those with
a place below the node, in the order of their places.
-/
namespace AgentWorkbench.Python

/-! Places. A place is the numbers of the children to go down to. -/

def Node.at? (node : Node) : List Nat → Option Node
  | [] => some node
  | index :: place => node.children[index]?.bind (·.at? place)

namespace Node

/-- A place seen from further above, with its node. -/
def placedUnder (above : List Nat) (entry : List Nat × Node) : List Nat × Node :=
  (above ++ entry.1, entry.2)

theorem placedUnder_append (above more : List Nat) (entry : List Nat × Node) :
    placedUnder above (placedUnder more entry) = placedUnder (above ++ more) entry := by
  rw [placedUnder, placedUnder, placedUnder, List.append_assoc]

mutual

/-- The node and everything below it, with the places, each node before its children. -/
def placed : Node → List (List Nat × Node)
  | mk kind start stop children => ([], mk kind start stop children) :: placedFrom 0 children

/-- The same of the children of a node from one on, which has the given number. -/
def placedFrom (index : Nat) : List Node → List (List Nat × Node)
  | [] => []
  | node :: rest =>
    node.placed.map (placedUnder [index]) ++ placedFrom (index + 1) rest

end

mutual

theorem map_snd_placed : ∀ node : Node, node.placed.map Prod.snd = node.preorder
  | mk kind start stop children => by
    rw [placed, preorder, List.map_cons, map_snd_placedFrom 0 children]

theorem map_snd_placedFrom (index : Nat) : ∀ nodes : List Node,
    (placedFrom index nodes).map Prod.snd = preorderList nodes
  | [] => rfl
  | node :: rest => by
    rw [placedFrom, preorderList, List.map_append, map_snd_placedFrom (index + 1) rest,
      List.map_map, ← map_snd_placed node]
    rfl

end

theorem exists_cons_of_mem_placedFrom {nodes : List Node} {index : Nat} {entry : List Nat × Node}
    (h : entry ∈ placedFrom index nodes) :
    ∃ number place, index ≤ number ∧ entry.1 = number :: place := by
  induction nodes generalizing index with
  | nil => exact nomatch h
  | cons node rest ih =>
    rw [placedFrom, List.mem_append, List.mem_map] at h
    obtain ⟨entry, -, rfl⟩ | h := h
    · exact ⟨index, entry.1, Nat.le_refl index, rfl⟩
    · obtain ⟨number, place, above, same⟩ := ih h
      exact ⟨number, place, Nat.le_of_succ_le above, same⟩

mutual

theorem placed_pairwise : ∀ node : Node, (node.placed.map Prod.fst).Pairwise (· < ·)
  | mk kind start stop children => by
    rw [placed, List.map_cons, List.pairwise_cons]
    refine ⟨fun place found => ?_, placedFrom_pairwise 0 children⟩
    obtain ⟨entry, there, rfl⟩ := List.mem_map.mp found
    obtain ⟨number, place, -, same⟩ := exists_cons_of_mem_placedFrom there
    rw [same]
    exact List.nil_lt_cons number place

theorem placedFrom_pairwise (index : Nat) : ∀ nodes : List Node,
    ((placedFrom index nodes).map Prod.fst).Pairwise (· < ·)
  | [] => List.Pairwise.nil
  | node :: rest => by
    rw [placedFrom, List.map_append, List.map_map]
    refine List.pairwise_append.mpr ⟨?_, placedFrom_pairwise (index + 1) rest, ?_⟩
    · have inside := (placed_pairwise node).map (index :: ·) fun one other before =>
        List.cons_lt_cons_self.mpr before
      rwa [List.map_map] at inside
    · intro one first other later
      obtain ⟨entry, -, rfl⟩ := List.mem_map.mp first
      obtain ⟨entry, there, rfl⟩ := List.mem_map.mp later
      obtain ⟨number, more, above, same⟩ := exists_cons_of_mem_placedFrom there
      rw [same]
      exact List.cons_lt_cons_iff.mpr (.inl above)

end

mutual

theorem mem_placed_iff : ∀ (node : Node) (place : List Nat) (below : Node),
    (place, below) ∈ node.placed ↔ node.at? place = some below
  | mk kind start stop children, [], below => by
    rw [placed, at?, List.mem_cons]
    constructor
    · rintro (same | found)
      · exact congrArg some (Prod.mk.inj same).2.symm
      · obtain ⟨number, place, -, same⟩ := exists_cons_of_mem_placedFrom found
        exact nomatch same
    · intro same
      exact .inl (congrArg _ (Option.some.inj same).symm)
  | mk kind start stop children, number :: place, below => by
    rw [placed, at?, List.mem_cons, mem_placedFrom_iff 0 children]
    constructor
    · rintro (same | ⟨further, same, found⟩)
      · exact nomatch (Prod.mk.inj same).1
      · rw [same, Nat.zero_add]
        exact found
    · intro found
      exact .inr ⟨number, (Nat.zero_add number).symm, found⟩

theorem mem_placedFrom_iff (index : Nat) : ∀ (nodes : List Node) (number : Nat)
    (place : List Nat) (below : Node), (number :: place, below) ∈ placedFrom index nodes ↔
      ∃ further, number = index + further ∧
        nodes[further]?.bind (·.at? place) = some below
  | [], number, place, below => by
    simp [placedFrom]
  | node :: rest, number, place, below => by
    have here : (number :: place, below) ∈ node.placed.map (placedUnder [index]) ↔
        number = index ∧ node.at? place = some below := by
      rw [← mem_placed_iff node place below, List.mem_map]
      constructor
      · rintro ⟨entry, there, same⟩
        cases same
        exact ⟨rfl, there⟩
      · rintro ⟨rfl, there⟩
        exact ⟨_, there, rfl⟩
    rw [placedFrom, List.mem_append, here, mem_placedFrom_iff (index + 1) rest]
    constructor
    · rintro (⟨rfl, found⟩ | ⟨further, rfl, found⟩)
      · exact ⟨0, rfl, found⟩
      · exact ⟨further + 1, by omega, found⟩
    · rintro ⟨_ | further, rfl, found⟩
      · exact .inl ⟨rfl, found⟩
      · exact .inr ⟨further, by omega, found⟩

end

end Node

/-! The places of cursors. -/

/-- The number of the child that the step goes up from. -/
def CursorStep.index (step : CursorStep) : Nat :=
  step.parent.children.length - (step.right.length + 1)

namespace Cursor

def place (c : Cursor) : List Nat :=
  (c.path.map CursorStep.index).reverse

mutual

/-- The cursors at a node and at everything below it, each before those at the children. -/
def below : Node → List CursorStep → List Cursor
  | .mk kind start stop children, path =>
    { node := .mk kind start stop children, path } ::
      belowAlong (.mk kind start stop children) path children

/-- The same of the children of a node from one on. -/
def belowAlong (parent : Node) (path : List CursorStep) : List Node → List Cursor
  | [] => []
  | child :: rest => below child (⟨parent, rest⟩ :: path) ++ belowAlong parent path rest

end

mutual

theorem map_place_below : ∀ (node : Node) (path : List CursorStep),
    (below node path).map (fun c => (c.place, c.node)) =
      node.placed.map (Node.placedUnder (path.map CursorStep.index).reverse)
  | .mk kind start stop children, path => by
    rw [below, Node.placed, List.map_cons, List.map_cons,
      map_place_belowAlong (.mk kind start stop children) path [] children rfl,
      Node.placedUnder, List.append_nil]
    rfl

theorem map_place_belowAlong (parent : Node) (path : List CursorStep) :
    ∀ (left nodes : List Node), parent.children = left ++ nodes →
      (belowAlong parent path nodes).map (fun c => (c.place, c.node)) =
        (Node.placedFrom left.length nodes).map
          (Node.placedUnder (path.map CursorStep.index).reverse)
  | left, [], _ => rfl
  | left, child :: rest, split => by
    have number : CursorStep.index ⟨parent, rest⟩ = left.length := by
      simp [CursorStep.index, split]
    have later := map_place_belowAlong parent path (left ++ [child]) rest (by simp [split])
    rw [List.length_append] at later
    rw [belowAlong, Node.placedFrom, List.map_append, List.map_append,
      map_place_below child, later, List.map_map, List.map_cons, number, List.reverse_cons]
    congr 1
    exact List.map_congr_left fun entry _ => (Node.placedUnder_append _ _ entry).symm

end

end Cursor

/-! The loop. -/

inductive Loop where
  /-- The node is visited next. -/
  | visit (c : Cursor)
  /-- Everything below the node has been visited. -/
  | leave (c : Cursor)

namespace Loop

def step : Loop → Option Loop
  | visit c =>
    match c.firstChild? with
    | some child => some (visit child)
    | none => some (leave c)
  | leave c =>
    match c.nextSibling? with
    | some sibling => some (visit sibling)
    | none => c.parent?.map leave

/-- The loop ends, and visits these nodes, if it goes on like this. -/
inductive Visits : Loop → List Cursor → Prop where
  | visit {c : Cursor} {next : Loop} {rest : List Cursor} (moves : step (.visit c) = some next)
      (later : Visits next rest) : Visits (.visit c) (c :: rest)
  | leave {c : Cursor} {next : Loop} {rest : List Cursor} (moves : step (.leave c) = some next)
      (later : Visits next rest) : Visits (.leave c) rest
  | done {c : Cursor} (stays : step (.leave c) = none) : Visits (.leave c) []

theorem Visits.unique {loop : Loop} {visited others : List Cursor} (one : Visits loop visited)
    (other : Visits loop others) : visited = others := by
  induction one generalizing others with
  | visit moves _ ih =>
    cases other with
    | visit moves' later =>
      cases moves.symm.trans moves'
      rw [ih later]
  | leave moves _ ih =>
    cases other with
    | leave moves' later =>
      cases moves.symm.trans moves'
      exact ih later
    | done stays => exact nomatch moves.symm.trans stays
  | done stays =>
    cases other with
    | leave moves _ => exact nomatch moves.symm.trans stays
    | done => rfl

/-- At the first of some children of a node, or back at the node if there are none. -/
def along (parent : Node) (path : List CursorStep) : List Node → Loop
  | [] => leave { node := parent, path }
  | child :: rest => visit { node := child, path := ⟨parent, rest⟩ :: path }

theorem step_visit (node : Node) (path : List CursorStep) :
    step (visit { node, path }) = some (along node path node.children) := by
  obtain ⟨kind, start, stop, _ | ⟨child, rest⟩⟩ := node <;> rfl

theorem step_leave (node parent : Node) (path : List CursorStep) (right : List Node) :
    step (leave { node, path := ⟨parent, right⟩ :: path }) = some (along parent path right) := by
  cases right <;> rfl

mutual

theorem visits_below : ∀ (node : Node) (path : List CursorStep) (rest : List Cursor),
    Visits (leave { node, path }) rest →
      Visits (visit { node, path }) (Cursor.below node path ++ rest)
  | .mk kind start stop children, path, rest, later => by
    rw [Cursor.below, List.cons_append]
    exact .visit (step_visit _ path) (visits_belowAlong _ path children rest later)

theorem visits_belowAlong (parent : Node) (path : List CursorStep) :
    ∀ (nodes : List Node) (rest : List Cursor), Visits (leave { node := parent, path }) rest →
      Visits (along parent path nodes) (Cursor.belowAlong parent path nodes ++ rest)
  | [], rest, later => later
  | child :: siblings, rest, later => by
    rw [Cursor.belowAlong, List.append_assoc]
    refine visits_below child _ _ (.leave (step_leave child parent path siblings) ?_)
    exact visits_belowAlong parent path siblings rest later

end

end Loop

/-! Calls. -/

namespace SourceTree

/-- The call at a node, with the node's place. -/
def placedCall? (tree : SourceTree) (entry : List Nat × Node) : Option (List Nat × Call) :=
  if entry.2.kind = .call then (tree.lower entry.2).call?.map (entry.1, ·) else none

theorem placedCall?_eq_some_iff (tree : SourceTree) (entry : List Nat × Node) (place : List Nat)
    (call : Call) : tree.placedCall? entry = some (place, call) ↔
      entry.1 = place ∧ entry.2.kind = .call ∧ (tree.lower entry.2).call? = some call := by
  by_cases h : entry.2.kind = .call
  · rw [placedCall?, if_pos h, Option.map_eq_some_iff]
    constructor
    · rintro ⟨found, lowered, same⟩
      cases same
      exact ⟨rfl, h, lowered⟩
    · rintro ⟨rfl, -, lowered⟩
      exact ⟨call, lowered, rfl⟩
  · rw [placedCall?, if_neg h]
    exact iff_of_false nofun fun ⟨_, isCall, _⟩ => h isCall

def placedCalls (tree : SourceTree) (node : Node) : List (List Nat × Call) :=
  node.placed.filterMap tree.placedCall?

theorem map_snd_placedCalls (tree : SourceTree) (node : Node) :
    (tree.placedCalls node).map Prod.snd = tree.callsIn node := by
  rw [callsIn, Node.walk_eq_preorder, ← Node.map_snd_placed, List.filterMap_map, placedCalls,
    List.map_filterMap]
  congr 1
  funext entry
  by_cases h : entry.2.kind = .call
  · rw [placedCall?, if_pos h, Function.comp, if_pos h, Option.map_map]
    exact Option.map_id'
  · rw [placedCall?, if_neg h, Function.comp, if_neg h]
    rfl

theorem placedCalls_pairwise (tree : SourceTree) (node : Node) :
    ((tree.placedCalls node).map Prod.fst).Pairwise (· < ·) := by
  refine List.pairwise_map.mpr (List.Pairwise.filterMap tree.placedCall? ?_
    (List.pairwise_map.mp node.placed_pairwise))
  intro entry other before found at_ found' at_'
  have same := ((tree.placedCall?_eq_some_iff entry found.1 found.2).mp at_).1
  have same' := ((tree.placedCall?_eq_some_iff other found'.1 found'.2).mp at_').1
  rwa [← same, ← same']

theorem mem_placedCalls_iff (tree : SourceTree) (node : Node) (place : List Nat) (call : Call) :
    (place, call) ∈ tree.placedCalls node ↔ ∃ below, node.at? place = some below ∧
      below.kind = .call ∧ (tree.lower below).call? = some call := by
  rw [placedCalls, List.mem_filterMap]
  constructor
  · rintro ⟨⟨here, below⟩, there, found⟩
    obtain ⟨rfl, isCall, lowered⟩ := (tree.placedCall?_eq_some_iff _ place call).mp found
    exact ⟨below, (node.mem_placed_iff here below).mp there, isCall, lowered⟩
  · rintro ⟨below, there, isCall, lowered⟩
    exact ⟨(place, below), (node.mem_placed_iff place below).mpr there,
      (tree.placedCall?_eq_some_iff _ place call).mpr ⟨rfl, isCall, lowered⟩⟩

theorem isSome_call?_lower (tree : SourceTree) (start stop : Nat) (callee arguments : Node) :
    (tree.lower (.mk .call start stop [callee, arguments])).call?.isSome := by
  rw [lower]
  rfl

end SourceTree

/-- The loop ends, and can end in one way only. It visits exactly the nodes that have a place
below the node it was put on, each once: the places increase, so that a node comes before its
children and these come from left to right. The calls below a node are found in the same way, each
once and in the order of their places, and no others. -/
theorem Loop.visits_each_once_in_order (node : Node) :
    ∃ visited : List Cursor,
      Loop.Visits (.visit { node }) visited ∧
      (∀ others, Loop.Visits (.visit { node }) others → others = visited) ∧
      visited.map Cursor.node = node.walk ∧
      node.walk = node.preorder ∧
      (visited.map Cursor.place).Pairwise (· < ·) ∧
      (∀ place below, node.at? place = some below ↔
        ∃ c ∈ visited, c.place = place ∧ c.node = below) ∧
      ∀ tree : SourceTree,
        (∀ start stop callee arguments,
          (tree.lower (.mk .call start stop [callee, arguments])).call?.isSome) ∧
        ∃ calls : List (List Nat × Call),
          tree.callsIn node = calls.map Prod.snd ∧
          (calls.map Prod.fst).Pairwise (· < ·) ∧
          ∀ place call, (place, call) ∈ calls ↔ ∃ below, node.at? place = some below ∧
            below.kind = .call ∧ (tree.lower below).call? = some call := by
  have visits : Loop.Visits (.visit { node }) (Cursor.below node []) := by
    have all := Loop.visits_below node [] [] (.done rfl)
    rwa [List.append_nil] at all
  have places : (Cursor.below node []).map (fun c => (c.place, c.node)) = node.placed := by
    rw [Cursor.map_place_below]
    exact List.map_id' node.placed
  have nodes : (Cursor.below node []).map Cursor.node = node.preorder := by
    rw [← node.map_snd_placed, ← places, List.map_map]
    rfl
  refine ⟨Cursor.below node [], visits, fun others run => run.unique visits,
    nodes.trans node.walk_eq_preorder.symm, node.walk_eq_preorder, ?_, fun place below => ?_,
    fun tree => ⟨tree.isSome_call?_lower, tree.placedCalls node,
      (tree.map_snd_placedCalls node).symm, tree.placedCalls_pairwise node,
      tree.mem_placedCalls_iff node⟩⟩
  · have increase := node.placed_pairwise
    rwa [← places, List.map_map] at increase
  · rw [← node.mem_placed_iff place below, ← places, List.mem_map]
    exact exists_congr fun c => and_congr_right fun _ => Iff.of_eq (Prod.mk.injEq ..)

end AgentWorkbench.Python
