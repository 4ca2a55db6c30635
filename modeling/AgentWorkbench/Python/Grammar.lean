import AgentWorkbench.Python.Grammar.Statement
import AgentWorkbench.Python.Lexer

/-!
The grammar of Python as a whole, and the reading of a source. Only the form is checked: where a
statement may stand, or which names it binds, is not looked at. Between two goals at least every
sixth one takes a token, which bounds how deep goals lead to each other.
-/
namespace AgentWorkbench.Python

namespace Grammar

def rule (p : Goal → Parse Node) : Goal → Parse Node
  | .named => named p
  | .expr => expression p
  | .operators => operators p
  | .negation => negation p
  | .operand => operand p
  | .primary => primary p
  | .interpolation => interpolation p
  | .pattern => pattern p
  | .line => line p

/-- Reads a goal, through at most this many goals inside each other. -/
def read : (fuel : Nat) → Goal → Parse Node
  | 0, _ => failure
  | fuel + 1, goal => rule (read fuel) goal

/-- How deep the goals of so many tokens can lead to each other. -/
def depth (tokens : List Token) : Nat := 8 * tokens.length + 16

def file (tokens : List Token) : Option Node := do
  let (lines, rest) ← Parse.many (read (depth tokens) .line) tokens
  if rest.isEmpty then return .spanning .file (lines.flatMap Node.children) else none

end Grammar

structure SourceTree where
  source : List Char
  root : Node
  deriving Repr

namespace SourceTree

def parse? (source : List Char) : Option SourceTree := do
  let tokens ← tokenize source
  return { source, root := ← Grammar.file tokens }

def text (tree : SourceTree) (node : Node) : List Char :=
  (tree.source.drop node.start).take (node.stop - node.start)

/-- The line on which a node starts, from 1. -/
def line (tree : SourceTree) (node : Node) : Nat :=
  (tree.source.take node.start).count '\n' + 1

end SourceTree

end AgentWorkbench.Python
