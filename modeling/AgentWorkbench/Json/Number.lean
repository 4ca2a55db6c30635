import AgentWorkbench.Json.Value
import AgentWorkbench.Number.Shortest

/-!
The text of JSON numbers. Reading keeps the digits that fit 64 bits, scales them by one power of
ten, and rounds each of the two steps; writing gives the shortest digits.
-/
namespace AgentWorkbench

structure NumberText where
  negative : Bool
  whole : List Char
  fraction : Option (List Char)
  /-- Whether the exponent is negative, and its digits. -/
  exponent : Option (Bool × List Char)
  deriving DecidableEq, Repr, Inhabited

namespace NumberText

def wordLimit : Nat := 0x10000000000000000

def digitValue (c : Char) : Nat := c.toNat - '0'.toNat

/-- Appends digits while the result fits 64 bits; the number so far, and the digits left over. -/
def takeDigits (acc : Nat) : List Char → Nat × List Char
  | [] => (acc, [])
  | c :: cs =>
    let next := acc * 10 + digitValue c
    if next < wordLimit then takeDigits next cs else (acc, c :: cs)

def powerOfTen (n : Nat) : Binary64 := Binary64.ofNat (Nat.pow 10 n)

/-- Multiplies or divides by a power of ten. Past `10 ^ 308` a division goes in steps of that
size, each of them rounded, and a multiplication has no finite result. -/
def scale (x : Binary64) (exponent : Int) : Nat → Option Binary64
  | 0 => some Binary64.zero
  | fuel + 1 =>
    if exponent.natAbs ≤ 308 then
      if 0 ≤ exponent then x.mul? (powerOfTen exponent.natAbs)
      else x.div? (powerOfTen exponent.natAbs)
    else if x.isZero then some x
    else if 0 ≤ exponent then none
    else do scale (← x.div? (powerOfTen 308)) (exponent + 308) fuel

/-- The significand with its decimal exponent, as a fraction; `none` past the largest number. -/
def assemble (negative : Bool) (significand : Nat) (exponent : Int) : Option JsonNumber := do
  let x ← scale (Binary64.ofNat significand) exponent 4
  return .float { x with negative := negative }

/-- The first number that takes more than the 31 bits of a written exponent. -/
def exponentLimit : Nat := 0x80000000

def addExponent (start : Int) (negative : Bool) (n : Nat) : Int :=
  if negative then max (start - n) (-exponentLimit)
  else min (start + n) (exponentLimit - 1)

/-- Applies a written exponent. One past 32 bits gives zero or no finite number at all. -/
def withExponent (negative : Bool) (significand : Nat) (start : Int) :
    Option (Bool × List Char) → Option JsonNumber
  | none => assemble negative significand start
  | some (minus, digits) =>
    let n := (digits.foldl (fun acc c => acc * 10 + digitValue c) 0 : Nat)
    if n < exponentLimit then assemble negative significand (addExponent start minus n)
    else if significand ≠ 0 ∧ !minus then none
    else some (.float ⟨negative, 0⟩)

/-- A whole number that fits 64 bits, the sign included; a negative one must fit the signed kind,
and a negative zero is a fraction. -/
def ofWhole (negative : Bool) (n : Nat) : JsonNumber :=
  if !negative then .int n
  else if n = 0 ∨ 0x8000000000000000 < n then .float { Binary64.ofNat n with negative := true }
  else .int (-n)

/-- The number that is meant; `none` if it is past the largest one. -/
def value? (t : NumberText) : Option JsonNumber :=
  let (significand, extra) := takeDigits 0 t.whole
  match t.fraction with
  | none =>
    if extra.isEmpty ∧ t.exponent.isNone then some (ofWhole t.negative significand)
    else withExponent t.negative significand extra.length t.exponent
  | some fraction =>
    let (all, left) := takeDigits significand fraction
    let used : Int := fraction.length - left.length
    withExponent t.negative all (extra.length - used) t.exponent

end NumberText

namespace Binary64

def signText (x : Binary64) : List Char := if x.negative then ['-'] else []

/-- Digits `d` with their point after the first `point` of them. From 1e-5 up to 1e16 they are
written out, with at least one digit on each side; other magnitudes get an exponent. -/
def layout (d : List Char) (point : Int) : List Char :=
  let zeros (n : Int) := List.replicate n.toNat '0'
  if 16 < point ∨ point ≤ -5 then
    let exponent := point - 1
    let sign := if exponent < 0 then '-' else '+'
    let fraction := if d.length ≤ 1 then [] else '.' :: d.drop 1
    d.take 1 ++ fraction ++ ['e', sign] ++ (Nat.repr exponent.natAbs).toList
  else if point ≤ 0 then "0.".toList ++ zeros (-point) ++ d
  else if d.length ≤ point.toNat then d ++ zeros (point - d.length) ++ ".0".toList
  else d.take point.toNat ++ ['.'] ++ d.drop point.toNat

/-- The shortest text that reads back as the number. -/
def toText (x : Binary64) : List Char :=
  if x.isZero then x.signText ++ "0.0".toList
  else
    let d := x.shortest
    let digits := (Nat.repr d.digits).toList
    x.signText ++ layout digits (digits.length + d.scale)

end Binary64

def JsonNumber.toText : JsonNumber → List Char
  | int n => (toString n).toList
  | float x => x.toText

end AgentWorkbench
