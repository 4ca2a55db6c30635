import AgentWorkbench.Python.Cursor
import AgentWorkbench.Python.Grammar

/-!
Expressions as extraction looks at them: literals, names, attributes, calls and lists, each with
its source text. Every other expression is its source text alone. Parentheses around one
expression vanish.
-/
namespace AgentWorkbench.Python

/-- A part of a format string; an interpolation is the source text of its expression. -/
inductive FormatPart where
  | literal (text : String)
  | interpolation (source : String)
  deriving DecidableEq, Repr, Inhabited

inductive Expr where
  | str (source text : String)
  | formatted (source : String) (parts : List FormatPart)
  /-- A number, bytes, a truth value, `None` or an ellipsis. -/
  | constant (source : String)
  | name (name : String)
  | attribute (source : String) (object : Expr) (name : String)
  /-- A call; a keyword without a name stands for a doubly starred mapping. -/
  | call (source : String) (line : Nat) (callee : Expr) (args : List Expr)
    (keywords : List (Option String × Expr))
  | list (source : String) (items : List Expr)
  | other (source : String)
  deriving Repr, Inhabited

structure Call where
  line : Nat
  callee : Expr
  args : List Expr
  keywords : List (Option String × Expr)
  deriving Repr, Inhabited

namespace Expr

def source : Expr → String
  | .str source _ | .formatted source _ | .constant source | .attribute source _ _
  | .call source _ _ _ _ | .list source _ | .other source => source
  | .name id => id

def literal? : Expr → Option String
  | .str _ text => some text
  | .constant source => some source
  | _ => none

def name? : Expr → Option String
  | .name id => some id
  | _ => none

/-- A literal by its value, a name by itself, anything else by its source text. -/
def identifier (e : Expr) : String :=
  match e with
  | .name id => id
  | _ => e.literal?.getD e.source

/-- The text of a string; the source of an interpolation stands between braces. -/
def renderedText? : Expr → Option String
  | .str _ text => some text
  | .formatted _ parts =>
    some (String.join (parts.map fun
      | .literal text => text
      | .interpolation source => "\x7b" ++ source ++ "\x7d"))
  | _ => none

def call? : Expr → Option Call
  | .call _ line callee args keywords => some { line, callee, args, keywords }
  | _ => none

end Expr

namespace Call

def method? (c : Call) : Option String :=
  match c.callee with
  | .attribute _ _ name => some name
  | _ => none

def receiver? (c : Call) : Option String :=
  match c.callee with
  | .attribute _ object _ => object.name?
  | _ => none

/-- The name of what is called, with or without an object before it. -/
def calleeName? (c : Call) : Option String :=
  c.callee.name?.or c.method?

def keyword? (c : Call) (name : String) : Option Expr :=
  (c.keywords.find? (·.1 = some name)).map (·.2)

end Call

inductive Argument where
  | positional (value : Expr)
  | keyword (name : Option String) (value : Expr)
  deriving Repr, Inhabited

namespace Argument

def positional? : Argument → Option Expr
  | positional value => some value
  | keyword _ _ => none

def keyword? : Argument → Option (Option String × Expr)
  | keyword name value => some (name, value)
  | positional _ => none

end Argument

namespace SourceTree

/-! Strings. -/

/-- The literals that stand beside each other become one. -/
def mergeLiterals : List FormatPart → List FormatPart
  | .literal a :: rest =>
    match mergeLiterals rest with
    | .literal b :: more => .literal (a ++ b) :: more
    | merged => .literal a :: merged
  | part :: rest => part :: mergeLiterals rest
  | [] => []

def formatPart? (tree : SourceTree) (flags : StringPrefix) (node : Node) : Option FormatPart :=
  match node.kind with
  | .segment content => some (.literal (String.ofList (decodeSegment flags content)))
  | .interpolation =>
    some (.interpolation (String.ofList ((node.children.head?.map tree.text).getD [])))
  | _ => none

def stringFlags? (node : Node) : Option StringPrefix :=
  match node.kind with
  | .string flags => some flags
  | _ => none

/-- The expression of string nodes written one after the other. Bytes among them make all of it a
constant, and a format string makes all of it one. -/
def lowerStrings (tree : SourceTree) (source : String) (pieces : List Node) : Expr :=
  let flags := pieces.filterMap stringFlags?
  let parts := pieces.flatMap fun piece =>
    match stringFlags? piece with
    | some flags => piece.children.filterMap (formatPart? tree flags)
    | none => []
  if flags.any (·.bytes) then .constant source
  else if flags.any (·.format) then .formatted source (mergeLiterals parts)
  else
    .str source (String.join (parts.map fun
      | .literal text => text
      | .interpolation text => text))

/-! Expressions. -/

def argument (node : Node) (value : Expr) : Argument :=
  match node.kind with
  | .keywordArgument name => .keyword (some name) value
  | .mappingSplat => .keyword none value
  | _ => .positional value

mutual

/-- What an expression's node stands for; a keyword argument's stands for its value. -/
def lower (tree : SourceTree) : Node → Expr
  | .mk kind start stop children =>
    let node := Node.mk kind start stop children
    let source := String.ofList (tree.text node)
    match kind with
    | .identifier name => .name name
    | .constant => .constant source
    | .string _ => lowerStrings tree source [node]
    | .concatenation => lowerStrings tree source children
    | .group | .keywordArgument _ =>
      match lowerList tree children with
      | [inner] => inner
      | _ => .other source
    | .attribute name =>
      match lowerList tree children with
      | [object] => .attribute source object name
      | _ => .other source
    | .call =>
      match children with
      | [callee, arguments] =>
        let args := lowerArguments tree arguments
        .call source (tree.line node) (lower tree callee) (args.filterMap Argument.positional?)
          (args.filterMap Argument.keyword?)
      | _ => .other source
    | .list => .list source (lowerList tree children)
    | _ => .other source

def lowerList (tree : SourceTree) : List Node → List Expr
  | [] => []
  | node :: rest => lower tree node :: lowerList tree rest

/-- The arguments of a call; a generator without parentheses of its own is the only one. -/
def lowerArguments (tree : SourceTree) : Node → List Argument
  | .mk kind start stop children =>
    match kind with
    | .arguments => children.zipWith argument (lowerList tree children)
    | _ => [.positional (.other (String.ofList (tree.text (.mk kind start stop children))))]

end

def callsIn (tree : SourceTree) (node : Node) : List Call :=
  node.walk.filterMap fun visited =>
    if visited.kind = .call then (tree.lower visited).call? else none

end SourceTree

end AgentWorkbench.Python
