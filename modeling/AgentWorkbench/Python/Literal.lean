import AgentWorkbench.Text.Blank
import AgentWorkbench.Text.Lines
import AgentWorkbench.Text.Search

/-!
String literals: prefixes, escapes and docstrings. An escape that is unknown, or whose digits
stand for no character, is kept as it is written.
-/
namespace AgentWorkbench.Python

open Text

structure StringPrefix where
  raw : Bool := false
  bytes : Bool := false
  format : Bool := false
  deriving DecidableEq, Repr, Inhabited

namespace StringPrefix

def isQuote (c : Char) : Bool := c = '"' || c = '\''

/-- The flags of the letters, in any order and case. -/
def ofLetters (letters : List Char) : StringPrefix :=
  let letters := lowerAscii letters
  { raw := letters.contains 'r', bytes := letters.contains 'b', format := letters.contains 'f' }

/-- The flags of an opening token such as `rf"`; the quotes at its end do not count. -/
def ofToken (token : List Char) : StringPrefix :=
  ofLetters (dropEndWhile isQuote token)

end StringPrefix

def isOctal (c : Char) : Bool := '0' ≤ c && c ≤ '7'

def digitValue? (radix : Nat) (c : Char) : Option Nat :=
  let value :=
    if c.isDigit then c.toNat - '0'.toNat
    else if 'a' ≤ c ∧ c ≤ 'z' then c.toNat - 'a'.toNat + 10
    else if 'A' ≤ c ∧ c ≤ 'Z' then c.toNat - 'A'.toNat + 10
    else radix
  if value < radix then some value else none

/-- The number that digits stand for; a plus sign may stand before them. -/
def number? (radix : Nat) (cs : List Char) : Option Nat :=
  let digits := match cs with
    | '+' :: rest => rest
    | _ => cs
  if digits.isEmpty then none
  else digits.foldl (fun acc c => do return (← acc) * radix + (← digitValue? radix c)) (some 0)

def scalar? (n : Nat) : Option Char :=
  if h : n.isValidChar then some (Char.ofNatAux n h) else none

/-- What an escape with digits stands for: its character, or itself. -/
def numericEscape (radix : Nat) (digits written : List Char) : List Char :=
  match (number? radix digits).bind scalar? with
  | some c => [c]
  | none => written

def letterEscape? (c : Char) : Option (List Char) :=
  if c = '\n' then some []
  else if c = '\\' ∨ c = '\'' ∨ c = '"' then some [c]
  else if c = 'a' then some ['\x07']
  else if c = 'b' then some ['\x08']
  else if c = 'f' then some ['\x0c']
  else if c = 'n' then some ['\n']
  else if c = 'r' then some ['\r']
  else if c = 't' then some ['\t']
  else if c = 'v' then some ['\x0b']
  else none

def hexWidth? (c : Char) : Option Nat :=
  if c = 'x' then some 2
  else if c = 'u' then some 4
  else if c = 'U' then some 8
  else none

/-- The escape that starts with a backslash before `c`: what it stands for, and how many of the
characters after `c` it takes. -/
def escape (c : Char) (rest : List Char) : List Char × Nat :=
  match letterEscape? c with
  | some cs => (cs, 0)
  | none =>
    if isOctal c then
      let digits := c :: (rest.take 2).takeWhile isOctal
      (numericEscape 8 digits ('\\' :: digits), digits.length - 1)
    else
      match hexWidth? c with
      | some width =>
        let digits := rest.take width
        let written := '\\' :: c :: digits
        (if digits.length = width then numericEscape 16 digits written else written,
          digits.length)
      | none => (['\\', c], 0)

/-- Decodes escapes; the first `skip` characters belong to an escape and are passed over. -/
def decodeFrom : (skip : Nat) → List Char → List Char
  | _, [] => []
  | skip + 1, _ :: rest => decodeFrom skip rest
  | 0, c :: rest =>
    if c = '\\' then
      match rest with
      | [] => ['\\']
      | d :: more =>
        let (cs, taken) := escape d more
        cs ++ decodeFrom (taken + 1) rest
    else c :: decodeFrom 0 rest

def decodeEscapes (cs : List Char) : List Char := decodeFrom 0 cs

/-- The text of one segment of a literal: doubled braces of a format string count once, and a raw
string has no escapes. -/
def decodeSegment (flags : StringPrefix) (cs : List Char) : List Char :=
  let cs :=
    if flags.format then replacePair '}' '}' '}' (replacePair '\x7b' '\x7b' '\x7b' cs) else cs
  if flags.raw then cs else decodeEscapes cs

/-! Docstrings. -/

def expandTabs : (column : Nat) → List Char → List Char
  | _, [] => []
  | column, c :: rest =>
    if c = '\t' then
      let pad := 8 - column % 8
      List.replicate pad ' ' ++ expandTabs (column + pad) rest
    else c :: expandTabs (column + 1) rest

def indentWidth (line : List Char) : Nat := (line.takeWhile (· = ' ')).length

def hasContent (line : List Char) : Bool := line.any (· ≠ ' ')

/-- The least indentation among the lines that hold more than blanks; 0 if none does. -/
def margin (lines : List (List Char)) : Nat :=
  (((lines.filter hasContent).map indentWidth).min?).getD 0

def dropEmptyEnds (lines : List (List Char)) : List (List Char) :=
  ((lines.dropWhile List.isEmpty).reverse.dropWhile List.isEmpty).reverse

/-- A docstring without the indentation it shares with its surroundings. -/
def cleandoc (doc : List Char) : List Char :=
  match (splitOn '\n' doc).map (expandTabs 0) with
  | [] => []
  | first :: others =>
    let cut := margin others
    join ['\n'] (dropEmptyEnds (first.dropWhile (· = ' ') :: others.map (List.drop cut)))

end AgentWorkbench.Python
