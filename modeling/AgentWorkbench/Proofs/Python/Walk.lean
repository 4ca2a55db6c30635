import AgentWorkbench.Python.Cursor

/-!
A cursor that goes on to the next node until there is none visits a node and everything below it
once, in the order of the text.
-/
namespace AgentWorkbench.Python

namespace Cursor

/-- The visits from the next sibling on, of the node or of the nearest node above it that has
one. -/
def visitsAbove (fuel : Nat) (node : Node) (path : List CursorStep) : List Node :=
  match climb node path with
  | some next => visits fuel next
  | none => []

/-- The visits from the first of some children of a node on. -/
def visitsAlong (fuel : Nat) (parent : Node) (path : List CursorStep) : List Node → List Node
  | [] => visitsAbove fuel parent path
  | child :: rest => visits fuel { node := child, path := ⟨parent, rest⟩ :: path }

theorem visitsAbove_cons (fuel : Nat) (node : Node) (step : CursorStep) (path : List CursorStep) :
    visitsAbove fuel node (step :: path) = visitsAlong fuel step.parent path step.right := by
  obtain ⟨parent, _ | ⟨sibling, rest⟩⟩ := step <;> rfl

theorem visits_succ (fuel : Nat) (node : Node) (path : List CursorStep) :
    visits (fuel + 1) { node, path } = node :: visitsAlong fuel node path node.children := by
  obtain ⟨kind, start, stop, _ | ⟨child, rest⟩⟩ := node <;> rfl

mutual

theorem visits_eq (more : Nat) : ∀ (node : Node) (path : List CursorStep),
    visits (node.size + more) { node, path } = node.preorder ++ visitsAbove more node path
  | .mk kind start stop children, path => by
    rw [Node.size, Nat.add_comm 1, Nat.add_right_comm, visits_succ, Node.children,
      visitsAlong_eq more children, Node.preorder, List.cons_append]

theorem visitsAlong_eq (more : Nat) : ∀ (nodes : List Node) (parent : Node)
    (path : List CursorStep),
    visitsAlong (Node.sizeList nodes + more) parent path nodes =
      Node.preorderList nodes ++ visitsAbove more parent path
  | [], parent, path => by rw [Node.sizeList, Nat.zero_add]; rfl
  | child :: rest, parent, path => by
    rw [visitsAlong, Node.sizeList, Nat.add_assoc, visits_eq _ child, visitsAbove_cons,
      visitsAlong_eq more rest, Node.preorderList, List.append_assoc]

end

end Cursor

theorem Node.walk_eq_preorder (node : Node) : node.walk = node.preorder := by
  have visited := Cursor.visits_eq 0 node []
  rw [Nat.add_zero] at visited
  rw [walk, visited]
  exact List.append_nil _

end AgentWorkbench.Python
