import AgentWorkbench.Json.Reader

/-!
Reading typed values straight from JSON text. A record is an object with known fields, in any
order, each at most once, unknown ones passed over; or an array of its fields in declaration
order. The first error in the order of the text is the one reported.
-/
namespace AgentWorkbench

namespace JsonReader

def text : JsonReader String := fun cs =>
  match skipGap cs with
  | '"' :: rest => do
    let (s, left) ← stringRest none rest
    return (String.ofList s, left)
  | other => mismatch other

def binary64 : JsonReader Binary64 := fun cs =>
  match skipGap cs with
  | [] => .error .malformed
  | c :: rest =>
    if startsNumber c then do
      let (n, left) ← number (c :: rest)
      return (n.toBinary64, left)
    else mismatch (c :: rest)

def optional {α : Type} (reader : JsonReader α) : JsonReader (Option α) := fun cs =>
  match skipGap cs with
  | 'n' :: rest => do return (none, ← expectWord "ull".toList rest)
  | other => do
    let (a, left) ← reader other
    return (some a, left)

/-- An array of any length; `depth` levels may still be opened. -/
def list {α : Type} (item : Nat → JsonReader α) (depth : Nat) : JsonReader (List α) := fun cs =>
  match skipGap cs with
  | '[' :: rest =>
    match depth with
    | 0 => .error .malformed
    | depth + 1 => items (item depth) (rest.length + 1) true rest
  | other => mismatch other

/-- An object of free-form values, its members sorted by key. -/
def freeMembers (depth : Nat) : JsonReader (List (String × Json)) := fun cs =>
  match skipGap cs with
  | '\x7b' :: _ => do
    match ← value depth cs with
    | (.obj list, left) => return (list, left)
    | _ => throw .wrongShape
  | other => mismatch other

end JsonReader

/-- A field of a record that is read into a state: its name, whether the state has it already, and
how its value is read into the state at a depth. -/
structure JsonField (σ : Type) where
  name : String
  isSet : σ → Bool
  read : (depth : Nat) → σ → JsonReader σ

namespace JsonField

def of {σ α : Type} (name : String) (get : σ → Option α) (put : σ → α → σ)
    (reader : Nat → JsonReader α) : JsonField σ where
  name := name
  isSet s := (get s).isSome
  read depth s cs := do
    let (a, rest) ← reader depth cs
    return (put s a, rest)

end JsonField

namespace JsonReader

def recordMembers {σ : Type} (fields : List (JsonField σ)) (depth : Nat) :
    (fuel : Nat) → (first : Bool) → σ → JsonReader σ
  | 0, _, _, _ => .error .malformed
  | fuel + 1, first, s, cs => do
    let (more, cs) ← nextKey first cs
    if more then
      let (key, cs) ← stringRest none cs
      match fields.find? (·.name.toList = key) with
      | none =>
        let cs ← colon cs
        let ((), cs) ← skip (cs.length + 1) cs
        recordMembers fields depth fuel false s cs
      | some field =>
        if field.isSet s then throw .wrongShape
        let cs ← colon cs
        let (s, cs) ← field.read depth s cs
        recordMembers fields depth fuel false s cs
    else return (s, cs)

/-- The items of an array read into the state, field by field. An array that ends early leaves the
other fields unset; one that goes on is malformed. -/
def recordItems {σ : Type} (depth : Nat) :
    List (JsonField σ) → (first : Bool) → σ → JsonReader (Bool × σ)
  | [], _, s, cs => .ok ((false, s), cs)
  | field :: fields, first, s, cs => do
    let (more, cs) ← nextItem first cs
    if more then
      let (s, cs) ← field.read depth s cs
      recordItems depth fields false s cs
    else return ((true, s), cs)

/-- A record; `finish` fails when a field without a default is missing. -/
def record {σ α : Type} (fields : List (JsonField σ)) (init : σ) (finish : σ → Option α)
    (depth : Nat) : JsonReader α := fun cs =>
  let done (s : σ) : Except JsonError α :=
    match finish s with
    | some a => .ok a
    | none => .error .wrongShape
  match skipGap cs with
  | '[' :: rest =>
    match depth with
    | 0 => .error .malformed
    | depth + 1 => do
      let ((closed, s), left) ← recordItems depth fields true init rest
      let a ← done s
      if closed then return (a, left)
      match skipGap left with
      | ']' :: left => return (a, left)
      | _ => throw .malformed
  | '\x7b' :: rest =>
    match depth with
    | 0 => .error .malformed
    | depth + 1 => do
      let (s, left) ← recordMembers fields depth (rest.length + 1) true init rest
      return (← done s, left)
  | other => mismatch other

end JsonReader

end AgentWorkbench
