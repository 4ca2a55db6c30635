import AgentWorkbench.Json.Number

/-!
Reading JSON from a list of characters. A reader takes the text and gives what it read with the
text that is left, or the first error. Free-form values may nest 127 levels deep; a value that is
only skipped may nest without limit, and its numbers and surrogates are not looked at.
-/
namespace AgentWorkbench

/-- Why a text is not read: it is no JSON, or its JSON is not of the wanted form. -/
inductive JsonError where
  | malformed
  | wrongShape
  deriving DecidableEq, Repr, Inhabited

abbrev JsonReader (α : Type) := List Char → Except JsonError (α × List Char)

namespace JsonReader

/-- How many arrays and objects may stand inside each other. -/
def depthLimit : Nat := 127

def isGap (c : Char) : Bool :=
  c = ' ' || c = '\t' || c = '\n' || c = '\r'

def skipGap (cs : List Char) : List Char := cs.dropWhile isGap

def hexValue? (c : Char) : Option Nat :=
  if c.isDigit then some (c.toNat - '0'.toNat)
  else if 'a' ≤ c ∧ c ≤ 'f' then some (c.toNat - 'a'.toNat + 10)
  else if 'A' ≤ c ∧ c ≤ 'F' then some (c.toNat - 'A'.toNat + 10)
  else none

def hexFour? (a b c d : Char) : Option Nat := do
  let a ← hexValue? a
  let b ← hexValue? b
  let c ← hexValue? c
  let d ← hexValue? d
  return ((a * 16 + b) * 16 + c) * 16 + d

def simpleEscape? (c : Char) : Option Char :=
  if c = '"' ∨ c = '\\' ∨ c = '/' then some c
  else if c = 'b' then some (Char.ofNat 8)
  else if c = 'f' then some (Char.ofNat 12)
  else if c = 'n' then some '\n'
  else if c = 'r' then some '\r'
  else if c = 't' then some '\t'
  else none

def isHighSurrogate (n : Nat) : Bool := 0xD800 ≤ n && n < 0xDC00

def isLowSurrogate (n : Nat) : Bool := 0xDC00 ≤ n && n < 0xE000

/-- The rest of a string after its opening quote. `high` is the first half of a surrogate pair
whose second half has to follow. -/
def stringRest : (high : Option Nat) → List Char → Except JsonError (List Char × List Char)
  | _, [] => .error .malformed
  | high, '\\' :: 'u' :: a :: b :: c :: d :: rest =>
    match hexFour? a b c d, high with
    | none, _ => .error .malformed
    | some n, none =>
      if isHighSurrogate n then stringRest (some n) rest
      else if isLowSurrogate n then .error .malformed
      else do
        let (cs, left) ← stringRest none rest
        return (Char.ofNat n :: cs, left)
    | some n, some h =>
      if isLowSurrogate n then do
        let (cs, left) ← stringRest none rest
        return (Char.ofNat (0x10000 + (h - 0xD800) * 0x400 + (n - 0xDC00)) :: cs, left)
      else .error .malformed
  | some _, _ => .error .malformed
  | none, '"' :: rest => .ok ([], rest)
  | none, '\\' :: e :: rest =>
    match simpleEscape? e with
    | none => .error .malformed
    | some c => do
      let (cs, left) ← stringRest none rest
      return (c :: cs, left)
  | none, c :: rest =>
    if c.toNat < 0x20 ∨ c = '\\' then .error .malformed
    else do
      let (cs, left) ← stringRest none rest
      return (c :: cs, left)

def skipString : List Char → Except JsonError (List Char)
  | [] => .error .malformed
  | '"' :: rest => .ok rest
  | '\\' :: 'u' :: a :: b :: c :: d :: rest =>
    if (hexFour? a b c d).isSome then skipString rest else .error .malformed
  | '\\' :: e :: rest =>
    if (simpleEscape? e).isSome then skipString rest else .error .malformed
  | c :: rest => if c.toNat < 0x20 ∨ c = '\\' then .error .malformed else skipString rest

def expectWord (word : List Char) (cs : List Char) : Except JsonError (List Char) :=
  if word.isPrefixOf cs then .ok (cs.drop word.length) else .error .malformed

def digits (cs : List Char) : Except JsonError (List Char × List Char) :=
  match cs.takeWhile Char.isDigit with
  | [] => .error .malformed
  | ds => .ok (ds, cs.dropWhile Char.isDigit)

def minus : JsonReader Bool := fun cs =>
  match cs with
  | '-' :: rest => .ok (true, rest)
  | _ => .ok (false, cs)

/-- The sign of an exponent; it may be a plus. -/
def exponentSign : JsonReader Bool := fun cs =>
  match cs with
  | '+' :: rest => .ok (false, rest)
  | _ => minus cs

def fractionPart : JsonReader (Option (List Char)) := fun cs =>
  match cs with
  | '.' :: rest => do
    let (ds, left) ← digits rest
    return (some ds, left)
  | _ => .ok (none, cs)

def exponentPart : JsonReader (Option (Bool × List Char)) := fun cs =>
  match cs with
  | e :: rest =>
    if e = 'e' ∨ e = 'E' then do
      let (negative, rest) ← exponentSign rest
      let (ds, left) ← digits rest
      return (some (negative, ds), left)
    else .ok (none, cs)
  | [] => .ok (none, cs)

/-- A number as it is written; a whole part of several digits does not start with zero. -/
def numberText : JsonReader NumberText := fun cs => do
  let (negative, cs) ← minus cs
  let (whole, cs) ← digits cs
  if whole.length ≠ 1 ∧ whole.head? = some '0' then throw .malformed
  let (fraction, cs) ← fractionPart cs
  let (exponent, cs) ← exponentPart cs
  return (⟨negative, whole, fraction, exponent⟩, cs)

def startsNumber (c : Char) : Bool := c = '-' || c.isDigit

def number : JsonReader JsonNumber := fun cs => do
  let (text, rest) ← numberText cs
  match text.value? with
  | some n => return (n, rest)
  | none => throw .malformed

def scalar : JsonReader Json := fun cs =>
  match cs with
  | '"' :: rest => do
    let (s, left) ← stringRest none rest
    return (.str (String.ofList s), left)
  | 'n' :: _ => do return (.null, ← expectWord "null".toList cs)
  | 't' :: _ => do return (.bool true, ← expectWord "true".toList cs)
  | 'f' :: _ => do return (.bool false, ← expectWord "false".toList cs)
  | c :: _ =>
    if startsNumber c then do
      let (n, left) ← number cs
      return (.num n, left)
    else .error .malformed
  | [] => .error .malformed

/-- The error at a value of another kind than the wanted one. A scalar has to be well formed
before its kind is looked at. -/
def mismatch {α : Type} : JsonReader α := fun cs =>
  match cs with
  | '[' :: _ | '\x7b' :: _ => .error .wrongShape
  | _ => do
    let _ ← scalar cs
    throw .wrongShape

/-- Goes to the next item of an array and says whether there is one; the closing bracket is
passed. -/
def nextItem (first : Bool) : JsonReader Bool := fun cs =>
  match skipGap cs with
  | [] => .error .malformed
  | ']' :: rest => .ok (false, rest)
  | c :: rest =>
    if first then .ok (true, c :: rest)
    else if c = ',' then
      match skipGap rest with
      | [] | ']' :: _ => .error .malformed
      | after => .ok (true, after)
    else .error .malformed

/-- Goes past the quote that opens the next key, if there is one; the closing brace is passed. -/
def nextKey (first : Bool) : JsonReader Bool := fun cs =>
  match skipGap cs with
  | '\x7d' :: rest => .ok (false, rest)
  | '"' :: rest => if first then .ok (true, rest) else .error .malformed
  | ',' :: rest =>
    if first then .error .malformed
    else
      match skipGap rest with
      | '"' :: after => .ok (true, after)
      | _ => .error .malformed
  | _ => .error .malformed

def colon (cs : List Char) : Except JsonError (List Char) :=
  match skipGap cs with
  | ':' :: rest => .ok rest
  | _ => .error .malformed

def items {α : Type} (item : JsonReader α) : (fuel : Nat) → (first : Bool) → JsonReader (List α)
  | 0, _, _ => .error .malformed
  | fuel + 1, first, cs => do
    let (more, cs) ← nextItem first cs
    if more then
      let (a, cs) ← item cs
      let (rest, cs) ← items item fuel false cs
      return (a :: rest, cs)
    else return ([], cs)

def members {α : Type} (value : JsonReader α) :
    (fuel : Nat) → (first : Bool) → JsonReader (List (String × α))
  | 0, _, _ => .error .malformed
  | fuel + 1, first, cs => do
    let (more, cs) ← nextKey first cs
    if more then
      let (key, cs) ← stringRest none cs
      let cs ← colon cs
      let (a, cs) ← value cs
      let (rest, cs) ← members value fuel false cs
      return ((String.ofList key, a) :: rest, cs)
    else return ([], cs)

/-- A value as it is written: members in order, equal keys kept. -/
def document : (fuel : Nat) → (depth : Nat) → JsonReader Json
  | 0, _, _ => .error .malformed
  | fuel + 1, depth, cs =>
    match skipGap cs with
    | '[' :: rest =>
      match depth with
      | 0 => .error .malformed
      | depth + 1 => do
        let (list, left) ← items (document fuel depth) (rest.length + 1) true rest
        return (.arr list, left)
    | '\x7b' :: rest =>
      match depth with
      | 0 => .error .malformed
      | depth + 1 => do
        let (list, left) ← members (document fuel depth) (rest.length + 1) true rest
        return (.obj list, left)
    | other => scalar other

def value (depth : Nat) : JsonReader Json := fun cs => do
  let (v, rest) ← document (cs.length + 1) depth cs
  return (v.normalize, rest)

def skipMembers (value : JsonReader Unit) : (fuel : Nat) → (first : Bool) → JsonReader Unit
  | 0, _, _ => .error .malformed
  | fuel + 1, first, cs => do
    let (more, cs) ← nextKey first cs
    if more then
      let cs ← skipString cs
      let cs ← colon cs
      let ((), cs) ← value cs
      skipMembers value fuel false cs
    else return ((), cs)

def skip : (fuel : Nat) → JsonReader Unit
  | 0, _ => .error .malformed
  | fuel + 1, cs =>
    match skipGap cs with
    | '[' :: rest => do
      let (_, left) ← items (skip fuel) (rest.length + 1) true rest
      return ((), left)
    | '\x7b' :: rest => skipMembers (skip fuel) (rest.length + 1) true rest
    | '"' :: rest => do return ((), ← skipString rest)
    | c :: rest =>
      if startsNumber c then do
        let (_, left) ← numberText (c :: rest)
        return ((), left)
      else do
        let (_, left) ← scalar (c :: rest)
        return ((), left)
    | [] => .error .malformed

/-- Reads the whole text; only blanks may follow. -/
def run {α : Type} (reader : JsonReader α) (text : List Char) : Except JsonError α := do
  let (a, rest) ← reader text
  if (skipGap rest).isEmpty then return a else throw .malformed

end JsonReader

def Json.parse (text : String) : Except JsonError Json :=
  JsonReader.run (JsonReader.value JsonReader.depthLimit) text.toList

/-- The value of a text as it is written. -/
def Json.parseDocument (text : String) : Except JsonError Json :=
  JsonReader.run (fun cs => JsonReader.document (cs.length + 1) JsonReader.depthLimit cs)
    text.toList

end AgentWorkbench
