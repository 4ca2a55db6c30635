import AgentWorkbench.Instrument.Insertion
import AgentWorkbench.Instrument.Routine
import AgentWorkbench.Text.Identifier
import AgentWorkbench.Text.Search

/-!
Inserting the routine: above the first function of the top level and the decorators right before
it, or at the end of a source that has no such function.
-/
namespace AgentWorkbench.Instrument

open Text

def isIndent (c : Char) : Bool := c = ' ' || c = '\t'

/-- The text after a word and at least one blank. -/
def afterWord? (word : String) (cs : List Char) : Option (List Char) := do
  let rest ← stripStart word.toList cs
  guard (rest.head?.any isIndent)
  return rest.dropWhile isIndent

/-- Whether a line at the margin opens the definition of a function. -/
def isDefLine (line : List Char) : Bool :=
  match afterWord? "def" ((afterWord? "async" line).getD line) with
  | none => false
  | some rest =>
    rest.head?.any isWord && ((rest.dropWhile isWord).dropWhile isIndent).head? = some '('

def isDecoratorLine (line : List Char) : Bool := line.head? = some '@'

/-- The number of lines above the first function and its decorators; `none` if there is no
function. -/
def routineLine? (lines : List (List Char)) : Option Nat :=
  (lines.findIdx? isDefLine).map fun n =>
    n - ((lines.take n).reverse.takeWhile isDecoratorLine).length

def routineGap (source : List Char) : List Char :=
  if source.isEmpty ∨ source.getLast? = some '\n' then ['\n'] else ['\n', '\n']

def routineInsertion? (source : List Char) : Option Insertion :=
  if contains routineSignature.toList source then none
  else
    let lines := pieces source
    match routineLine? lines with
    | some n => some {
        before := (lines.take n).flatten
        block := routine.toList ++ ['\n', '\n']
        after := (lines.drop n).flatten }
    | none => some { before := source, block := routineGap source ++ routine.toList, after := [] }

def injectRoutine (source : List Char) : List Char :=
  insertOr source (routineInsertion? source)

end AgentWorkbench.Instrument
