import AgentWorkbench.Instrument.Placement

/-!
Inserting the hook: under the first guard that lets a source run as the main program, one level
deeper than the guard. A guard with its body on the same line gets no hook.
-/
namespace AgentWorkbench.Instrument

open Text

/-- A guard in a text: its indentation, all of it up to its colon, and what follows. -/
structure MainGuard where
  indent : List Char
  text : List Char
  after : List Char
  deriving DecidableEq, Repr

def dropBlanks (cs : List Char) : List Char := cs.dropWhile isBlank

def afterQuote? : List Char → Option (List Char)
  | c :: rest => if c = '"' ∨ c = '\'' then some rest else none
  | [] => none

/-- The guard that starts here. Blanks between its words may be of any kind, line breaks too. -/
def guardAt? (cs : List Char) : Option MainGuard := do
  let indent := cs.takeWhile isIndent
  let rest ← stripStart "if".toList (cs.dropWhile isIndent)
  guard (rest.head?.any isBlank)
  let rest ← stripStart "__name__".toList (dropBlanks rest)
  let rest ← stripStart "==".toList (dropBlanks rest)
  let rest ← afterQuote? (dropBlanks rest)
  let rest ← stripStart "__main__".toList rest
  let rest ← afterQuote? rest
  let after ← stripStart ":".toList (dropBlanks rest)
  return { indent, text := cs.take (cs.length - after.length), after }

def firstGuard? : (lineStart : Bool) → List Char → Option (List Char × MainGuard)
  | _, [] => none
  | lineStart, c :: rest =>
    match if lineStart then guardAt? (c :: rest) else none with
    | some g => some ([], g)
    | none => (firstGuard? (c = '\n') rest).map fun (before, g) => (c :: before, g)

def isCodeLine (line : List Char) : Bool :=
  let trimmed := trim line
  !trimmed.isEmpty && trimmed.head? ≠ some '#'

/-- The indentation of the hook: that of the first code below the guard, if it is deeper, and
otherwise four blanks more than the guard's. -/
def bodyIndent (guardIndent below : List Char) : List Char :=
  let indent := (((lines below).find? isCodeLine).getD []).takeWhile isIndent
  if guardIndent.length < indent.length ∧ guardIndent.isPrefixOf indent then indent
  else guardIndent ++ [' ', ' ', ' ', ' ']

def hookInsertion? (source : List Char) : Option Insertion := do
  guard (!contains hookMarker.toList source)
  let (before, g) ← firstGuard? true source
  let line := g.after.takeWhile (· ≠ '\n')
  let below := g.after.dropWhile (· ≠ '\n')
  guard (!isCodeLine line)
  let hook := hookLines (String.ofList (bodyIndent g.indent below))
  return {
    before := before ++ g.text ++ line
    block := hook.flatMap ('\n' :: ·.toList)
    after := below }

def injectHook (source : List Char) : List Char :=
  insertOr source (hookInsertion? source)

end AgentWorkbench.Instrument
