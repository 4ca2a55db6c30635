import AgentWorkbench.Python.Syntax

/-!
A cursor on a syntax tree: a node and the way back to the node where the cursor was put. It moves
to the first child, the next sibling or the parent, and never leaves the node it was put on.
-/
namespace AgentWorkbench.Python

/-- One step of the way back: the parent, and the siblings to the right. -/
structure CursorStep where
  parent : Node
  right : List Node

structure Cursor where
  node : Node
  /-- The nearest step first. -/
  path : List CursorStep := []

namespace Cursor

def firstChild? (c : Cursor) : Option Cursor :=
  match c.node.children with
  | [] => none
  | child :: rest => some { node := child, path := ⟨c.node, rest⟩ :: c.path }

def nextSibling? (c : Cursor) : Option Cursor :=
  match c.path with
  | ⟨parent, sibling :: rest⟩ :: path => some { node := sibling, path := ⟨parent, rest⟩ :: path }
  | _ => none

def parent? (c : Cursor) : Option Cursor :=
  match c.path with
  | [] => none
  | step :: path => some { node := step.parent, path }

/-- The next sibling of the node, or of the nearest node above it that has one. -/
def climb (node : Node) : List CursorStep → Option Cursor
  | [] => none
  | step :: path =>
    match ({ node, path := step :: path } : Cursor).nextSibling? with
    | some next => some next
    | none => climb step.parent path

def next? (c : Cursor) : Option Cursor :=
  match c.firstChild? with
  | some child => some child
  | none => climb c.node c.path

def visits : (fuel : Nat) → Cursor → List Node
  | 0, _ => []
  | fuel + 1, c =>
    c.node :: match c.next? with
      | some next => visits fuel next
      | none => []

end Cursor

def Node.walk (node : Node) : List Node :=
  Cursor.visits node.size { node }

end AgentWorkbench.Python
