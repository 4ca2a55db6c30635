import AgentWorkbench.Python.Expr

/-!
What the top level of a source defines: functions with their positional parameters and their
docstrings, and names that are assigned the value of a call.
-/
namespace AgentWorkbench.Python

structure Function where
  name : String
  node : Node
  /-- The parameters that can be given by position and by name. -/
  params : List String
  docstring : Option String
  deriving Repr, Inhabited

structure CallAssignment where
  /-- The targets that are plain names, in a chain of assignments from the left. -/
  targets : List String
  value : Expr
  call : Call
  deriving Repr, Inhabited

/-- The positional parameters among the nodes; `names` are those found before. A slash makes the
ones before it positional only, and a star ends them. -/
def positionalParams (names : List String) : List Node → List String
  | [] => names
  | node :: rest =>
    match node.kind with
    | .parameter name => positionalParams (names ++ [name]) rest
    | .slash => positionalParams [] rest
    | .starParameter => names
    | _ => positionalParams names rest

namespace Node

def childOfKind? (node : Node) (kind : NodeKind) : Option Node :=
  node.children.find? (·.kind = kind)

/-- The definition of a plain function, from under its decorators if it has some. -/
def functionDefinition? (node : Node) : Option (String × Node) :=
  let definition := if node.kind = .decorated then node.children.getLast? else some node
  match definition with
  | some inner =>
    match inner.kind with
    | .function name false => some (name, inner)
    | _ => none
  | none => none

def assignmentChain : Node → List String × Node
  | mk kind start stop children =>
    match kind, children with
    | .assignment _, [target, right] =>
      let (names, value) := right.assignmentChain
      match target.kind with
      | .identifier name => (name :: names, value)
      | _ => (names, value)
    | _, _ => ([], mk kind start stop children)

end Node

namespace SourceTree

/-- The docstring of a body: its first statement, if that is a text. -/
def docstring? (tree : SourceTree) (body : Node) : Option String :=
  match body.children with
  | first :: _ =>
    match first.kind, first.children with
    | .expressionStatement, [node] =>
      match tree.lower node with
      | .str _ text => some (String.ofList (cleandoc text.toList))
      | _ => none
    | _, _ => none
  | [] => none

def functionOf? (tree : SourceTree) (node : Node) : Option Function :=
  node.functionDefinition?.map fun (name, definition) => {
    name
    node := definition
    params := ((definition.childOfKind? .parameters).map
      (positionalParams [] ·.children)).getD []
    docstring := (definition.childOfKind? .block).bind tree.docstring? }

/-- The functions of the top level that are not asynchronous, in order. -/
def functions (tree : SourceTree) : List Function :=
  tree.root.children.filterMap tree.functionOf?

def callAssignment? (tree : SourceTree) (node : Node) : Option CallAssignment :=
  match node.kind, node.children with
  | .expressionStatement, [inner] =>
    if inner.kind = .assignment false then
      let (targets, right) := inner.assignmentChain
      let value := tree.lower right
      value.call?.map fun call => { targets, value, call }
    else none
  | _, _ => none

/-- The assignments of the top level whose value is a call, in order. -/
def callAssignments (tree : SourceTree) : List CallAssignment :=
  tree.root.children.filterMap tree.callAssignment?

end SourceTree

end AgentWorkbench.Python
