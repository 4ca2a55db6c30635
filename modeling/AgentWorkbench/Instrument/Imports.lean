import AgentWorkbench.Instrument.Insertion
import AgentWorkbench.Instrument.Routine
import AgentWorkbench.Text.Search

/-!
Inserting the imports that the routine needs. They go below the prologue of the source: leading
comments, the docstring, and imports from `__future__`, all of which have to stay first.
-/
namespace AgentWorkbench.Instrument

open Text

inductive PrologueItem where
  | blank
  | comment
  | docstring (lines : Nat)
  | futureImport (lines : Nat)
  deriving DecidableEq, Repr

def words (line : List Char) : List (List Char) :=
  match line with
  | [] => []
  | c :: rest =>
    if isBlank c then words rest
    else
      match rest, words rest with
      | d :: _, word :: more => if isBlank d then [c] :: word :: more else (c :: word) :: more
      | _, more => [c] :: more

def isFutureImport (line : List Char) : Bool :=
  ["from".toList, "__future__".toList].isPrefixOf (words line)

def isContinued (line : List Char) : Bool :=
  (trimEnd line).getLast? = some '\\'

/-- How many lines a simple statement takes; `depth` parentheses are open before it. An open
parenthesis or a backslash at the end of a line leads to the next one. -/
def statementLines : (depth : Int) → List (List Char) → Nat
  | _, [] => 0
  | depth, line :: rest =>
    let depth := depth + line.count '(' - line.count ')'
    if depth ≤ 0 ∧ ¬ isContinued line then 1 else 1 + statementLines depth rest

/-- The letters that may stand before the quote of a docstring. -/
def isPrefixLetter (c : Char) : Bool := "rRuUbB".toList.contains c

def tripleQuotes : List (List Char) := ["\"\"\"".toList, "'''".toList]

def singleQuotes : List (List Char) := ["\"".toList, "'".toList]

def openingQuote? (quotes : List (List Char)) (cs : List Char) :
    Option (List Char × List Char) :=
  quotes.findSome? fun quote => (stripStart quote cs).map (quote, ·)

/-- How many lines a docstring takes that starts with the first line. Its quote closes it, on any
line if it is a triple one and on the first line otherwise. -/
def docstringLines? : List (List Char) → Option Nat
  | [] => none
  | line :: rest =>
    let body := line.dropWhile isPrefixLetter
    if line.length - body.length > 2 then none
    else
      match openingQuote? tripleQuotes body with
      | some (quote, opened) => ((opened :: rest).findIdx? (contains quote)).map (· + 1)
      | none =>
        match openingQuote? singleQuotes body with
        | some (quote, opened) => if contains quote opened then some 1 else none
        | none => none

def prologueItem? (docstringAllowed : Bool) : List (List Char) → Option PrologueItem
  | [] => none
  | line :: rest =>
    let trimmed := trim line
    if trimmed.isEmpty then some .blank
    else if trimmed.head? = some '#' then some .comment
    else if isFutureImport trimmed then some (.futureImport (statementLines 0 (line :: rest)))
    else if docstringAllowed then (docstringLines? (line :: rest)).map .docstring
    else none

/-- The number of lines of the prologue; blank lines at its end do not belong to it. A docstring is
the first string, and none follows an import from `__future__`. -/
def prologueLines : (fuel : Nat) → (docstringAllowed : Bool) → List (List Char) → Nat
  | 0, _, _ => 0
  | fuel + 1, docstringAllowed, lines =>
    match prologueItem? docstringAllowed lines with
    | none => 0
    | some .blank =>
      match prologueLines fuel docstringAllowed (lines.drop 1) with
      | 0 => 0
      | n + 1 => n + 2
    | some .comment => 1 + prologueLines fuel docstringAllowed (lines.drop 1)
    | some (.docstring n) => n + prologueLines fuel false (lines.drop n)
    | some (.futureImport n) => n + prologueLines fuel false (lines.drop n)

def missingImports (source : List Char) : List String :=
  requiredImports.filter fun text => !contains text.toList source

/-- A line break, if the text does not end at the end of a line. -/
def closingBreak (before : List Char) : List Char :=
  if before.isEmpty ∨ before.getLast? = some '\n' then [] else ['\n']

/-- The imports as lines of their own, below the prologue. -/
def importsInsertion? (source : List Char) : Option Insertion :=
  let missing := missingImports source
  if missing.isEmpty then none
  else
    let lines := pieces source
    let n := prologueLines lines.length true lines
    let before := (lines.take n).flatten
    some {
      before
      block := closingBreak before ++ missing.flatMap (·.toList ++ ['\n'])
      after := (lines.drop n).flatten }

def injectImports (source : List Char) : List Char :=
  insertOr source (importsInsertion? source)

end AgentWorkbench.Instrument
