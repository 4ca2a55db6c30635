import AgentWorkbench.Python.Syntax
import AgentWorkbench.Python.Token

/-!
Parts of grammar rules. A rule reads tokens from the front and gives a node, or fails; where one
alternative fails the next one starts from the same tokens. Rules name the places where the
grammar returns to itself by a goal, and take the reading of goals as an argument.
-/
namespace AgentWorkbench.Python

/-- The places where the grammar returns to itself. -/
inductive Goal where
  | named
  | expr
  | operators
  | negation
  | operand
  | primary
  | interpolation
  | pattern
  /-- The statements of a logical line, or a compound statement. -/
  | line
  deriving DecidableEq, Repr

abbrev Parse (α : Type) := StateT (List Token) Option α

namespace Parse

def peek : Parse (Option TokenKind) := do
  return (← get).head?.map (·.kind)

def accept (kind : TokenKind) : Parse Token := fun tokens =>
  match tokens with
  | token :: rest => if token.kind = kind then some (token, rest) else none
  | [] => none

def accept? (kind : TokenKind) : Parse (Option Token) := fun tokens =>
  match accept kind tokens with
  | some (token, rest) => some (some token, rest)
  | none => some (none, tokens)

def op (text : String) : Parse Token := accept (.op text)

def keyword (text : String) : Parse Token := accept (.keyword text)

def name : Parse (String × Token) := fun tokens =>
  match tokens with
  | ⟨.name text, start, stop⟩ :: rest => some ((text, ⟨.name text, start, stop⟩), rest)
  | _ => none

/-- A string that is no format string: its flags, its content and its token. -/
def plainString : Parse (StringPrefix × List Char × Token) := fun tokens =>
  match tokens with
  | ⟨.string flags content, start, stop⟩ :: rest =>
    some ((flags, content, ⟨.string flags content, start, stop⟩), rest)
  | _ => none

def formatStart : Parse (StringPrefix × Token) := fun tokens =>
  match tokens with
  | ⟨.formatStart flags, start, stop⟩ :: rest =>
    some ((flags, ⟨.formatStart flags, start, stop⟩), rest)
  | _ => none

def formatText : Parse (List Char × Token) := fun tokens =>
  match tokens with
  | ⟨.formatText content, start, stop⟩ :: rest =>
    some ((content, ⟨.formatText content, start, stop⟩), rest)
  | _ => none

/-- The given word where it is no keyword. -/
def word (text : String) : Parse Token := accept (.name text)

def oneOf (kinds : List TokenKind) : Parse Token := fun tokens =>
  match tokens with
  | token :: rest => if kinds.contains token.kind then some (token, rest) else none
  | [] => none

def optional {α : Type} (p : Parse α) : Parse (Option α) := fun tokens =>
  match p tokens with
  | some (a, rest) => some (some a, rest)
  | none => some (none, tokens)

/-- As often as it goes, but not more often than there are tokens in a list. -/
def manyWithin {α : Type} (p : Parse α) : (budget : List Token) → Parse (List α)
  | [] => pure []
  | _ :: budget => fun tokens =>
    match p tokens with
    | none => some ([], tokens)
    | some (a, rest) =>
      (manyWithin p budget rest).map fun (more, left) => (a :: more, left)

/-- As often as it goes; every time takes a token. -/
def many {α : Type} (p : Parse α) : Parse (List α) := fun tokens =>
  manyWithin p tokens tokens

def many1 {α : Type} (p : Parse α) : Parse (List α) := do
  let first ← p
  return first :: (← many p)

/-- Parts between commas, at least one, and the comma after the last one if it is there. -/
def commaList {α : Type} (p : Parse α) : Parse (List α × Option Token) := do
  let first ← p
  let rest ← many (do let _ ← op ","; p)
  return (first :: rest, ← accept? (.op ","))

end Parse

namespace Node

/-- A node over children of which the first and the last give its stretch. -/
def spanning (kind : NodeKind) (children : List Node) : Node :=
  mk kind ((children.head?.map start).getD 0) ((children.getLast?.map stop).getD 0) children

def onward (token : Token) (kind : NodeKind) (children : List Node) : Node :=
  mk kind token.start ((children.getLast?.map stop).getD token.stop) children

def between (first last : Token) (kind : NodeKind) (children : List Node) : Node :=
  mk kind first.start last.stop children

def leaf (token : Token) (kind : NodeKind) : Node :=
  mk kind token.start token.stop []

def chain (first : Node) (rest : List Node) : Node :=
  if rest.isEmpty then first else spanning .expression (first :: rest)

/-- Expressions between commas: a tuple, unless there is one without a comma. -/
def bareTuple (nodes : List Node) (trailing : Option Token) : Node :=
  match nodes, trailing with
  | [node], none => node
  | _, some comma => mk .tuple (spanning .tuple nodes).start comma.stop nodes
  | _, none => spanning .tuple nodes

end Node

end AgentWorkbench.Python
