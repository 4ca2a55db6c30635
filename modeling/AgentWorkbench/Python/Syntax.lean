import AgentWorkbench.Python.Literal

/-!
Syntax trees of Python source. A node has a kind, the stretch of the source that it covers, and
its children in the order of the source. Only the shapes that are looked at later have kinds of
their own; chains of operators are one node over all their operands.
-/
namespace AgentWorkbench.Python

inductive NodeKind where
  | identifier (name : String)
  | attribute (name : String)
  | subscript
  /-- A call, over the callee and its arguments. -/
  | call
  | arguments
  | keywordArgument (name : String)
  | splat
  | mappingSplat
  | string (flags : StringPrefix)
  | segment (content : List Char)
  /-- An interpolation, over its expression and those of its format specification. -/
  | interpolation
  /-- Strings written one after the other. -/
  | concatenation
  /-- A number, a truth value, `None` or an ellipsis. -/
  | constant
  | group
  | tuple
  | list
  | generator
  | expression
  | file
  | block
  /-- A function definition, over its parameters, its result annotation and its body. -/
  | function (name : String) (isAsync : Bool)
  | parameters
  | parameter (name : String)
  /-- The star, with or without a name, after which parameters are no longer positional. -/
  | starParameter
  | mappingParameter
  | slash
  | decorated
  | expressionStatement
  /-- An assignment, over its target, the annotation if there is one, and the value. -/
  | assignment (annotated : Bool)
  | statement
  deriving DecidableEq, Repr, Inhabited

inductive Node where
  | mk (kind : NodeKind) (start stop : Nat) (children : List Node)
  deriving Repr, Inhabited

namespace Node

def kind : Node → NodeKind
  | mk kind _ _ _ => kind

def start : Node → Nat
  | mk _ start _ _ => start

def stop : Node → Nat
  | mk _ _ stop _ => stop

def children : Node → List Node
  | mk _ _ _ children => children

mutual

/-- The node and everything below it, each node before its children and from left to right. -/
def preorder : Node → List Node
  | mk kind start stop children => mk kind start stop children :: preorderList children

def preorderList : List Node → List Node
  | [] => []
  | node :: rest => node.preorder ++ preorderList rest

end

mutual

def size : Node → Nat
  | mk _ _ _ children => 1 + sizeList children

def sizeList : List Node → Nat
  | [] => 0
  | node :: rest => node.size + sizeList rest

end

def isTarget : Node → Bool
  | mk kind _ _ children =>
    match kind with
    | .identifier _ | .attribute _ | .subscript => true
    | .splat | .group | .tuple | .list => areTargets children
    | _ => false
where
  areTargets : List Node → Bool
    | [] => true
    | node :: rest => node.isTarget && areTargets rest

end Node

end AgentWorkbench.Python
