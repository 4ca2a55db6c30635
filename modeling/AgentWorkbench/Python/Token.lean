import AgentWorkbench.Python.Literal

/-!
Tokens of Python source. Every token carries the stretch of the source it covers, in characters.
The literal parts and the interpolations of a format string are tokens of their own.
-/
namespace AgentWorkbench.Python

inductive TokenKind where
  /-- An identifier; words that are reserved in some places only count as identifiers. -/
  | name (text : String)
  | keyword (text : String)
  | number
  /-- A string that is no format string, with the characters between its quotes. -/
  | string (flags : StringPrefix) (content : List Char)
  | formatStart (flags : StringPrefix)
  | formatText (content : List Char)
  | formatEnd
  | interpolationStart
  | interpolationEnd
  | conversion
  | op (text : String)
  | newline
  | indent
  | dedent
  deriving DecidableEq, Repr, Inhabited

structure Token where
  kind : TokenKind
  start : Nat
  stop : Nat
  deriving DecidableEq, Repr, Inhabited

def keywords : List String :=
  ["False", "None", "True", "and", "as", "assert", "async", "await", "break", "class",
    "continue", "def", "del", "elif", "else", "except", "finally", "for", "from", "global", "if",
    "import", "in", "is", "lambda", "nonlocal", "not", "or", "pass", "raise", "return", "try",
    "while", "with", "yield"]

def TokenKind.ofWord (word : List Char) : TokenKind :=
  let text := String.ofList word
  if keywords.contains text then .keyword text else .name text

def operators : List String :=
  ["**=", "//=", ">>=", "<<=", "...", "**", "//", ">>", "<<", "<=", ">=", "==", "!=", "->",
    "+=", "-=", "*=", "/=", "%=", "&=", "|=", "^=", "@=", ":=", "+", "-", "*", "/", "%", "@",
    "&", "|", "^", "~", "<", ">", "(", ")", "[", "]", "\x7b", "\x7d", ",", ":", ".", ";", "="]

def operator? (cs : List Char) : Option String :=
  operators.find? fun op => op.toList.isPrefixOf cs

end AgentWorkbench.Python
