/-!
Finite binary floating-point numbers of 64 bits. A number is a sign and a code: the exponent and
fraction fields read as one natural number, so that codes are ordered as the magnitudes are. Every
operation computes the exact rational result and rounds it once, to nearest with ties to even;
`none` stands for a result past the largest finite number.
-/
namespace AgentWorkbench

structure Binary64 where
  negative : Bool
  code : Nat
  deriving DecidableEq, Repr, Inhabited

namespace Binary64

/-- The code of infinity: the first one that no finite number has. -/
def codeLimit : Nat := 0x7FF0000000000000

/-- The first code of a number with a full mantissa; codes above it come in groups of as many. -/
def hiddenBit : Nat := 0x10000000000000

def zero : Binary64 := ⟨false, 0⟩

def isZero (x : Binary64) : Bool := x.code = 0

def neg (x : Binary64) : Binary64 := { x with negative := !x.negative }

/-- A magnitude is `mantissa * 2 ^ exponent`; the exponent is at least -1074. -/
def mantissa (x : Binary64) : Nat :=
  if x.code < hiddenBit then x.code else x.code % hiddenBit + hiddenBit

def exponent (x : Binary64) : Int :=
  if x.code < hiddenBit then -1074 else (x.code / hiddenBit : Nat) - 1075

def numerator (x : Binary64) : Nat :=
  x.mantissa * Nat.pow 2 x.exponent.toNat

def denominator (x : Binary64) : Nat :=
  Nat.pow 2 (-x.exponent).toNat

/-- The quotient rounded to the nearest integer, a tie to the even one. -/
def divNearest (num den : Nat) : Nat :=
  let q := num / den
  let twice := 2 * (num % den)
  if twice < den then q
  else if den < twice then q + 1
  else if q % 2 = 0 then q else q + 1

/-- The exponent of the grid on which a quotient is rounded: 53 bits of it are kept, and none
below 2 ^ -1074. -/
def gridExponent (num den : Nat) : Int :=
  let guess : Int := (Nat.log2 num : Int) - Nat.log2 den
  -- the quotient lies in [2 ^ guess / 2, 2 ^ guess * 2)
  let exact : Int :=
    if num * Nat.pow 2 (-guess).toNat < den * Nat.pow 2 guess.toNat then guess - 1 else guess
  max (exact - 52) (-1074)

/-- The nearest code of `num / den`, which infinity's code bounds from above. -/
def codeOfRatio (num den : Nat) : Nat :=
  if num = 0 then 0
  else
    let e := gridExponent num den
    let m := divNearest (num * Nat.pow 2 (-e).toNat) (den * Nat.pow 2 e.toNat)
    (e + 1074).toNat * hiddenBit + m

def ofRatio? (negative : Bool) (num den : Nat) : Option Binary64 :=
  let code := codeOfRatio num den
  if code < codeLimit then some ⟨negative, code⟩ else none

/-- The natural number, rounded; those of 64 bits are all far below the largest number. -/
def ofNat (n : Nat) : Binary64 :=
  (ofRatio? false n 1).getD zero

def ofInt (n : Int) : Binary64 :=
  { ofNat n.natAbs with negative := n < 0 }

def mul? (x y : Binary64) : Option Binary64 :=
  ofRatio? (x.negative != y.negative) (x.numerator * y.numerator) (x.denominator * y.denominator)

def div? (x y : Binary64) : Option Binary64 :=
  ofRatio? (x.negative != y.negative) (x.numerator * y.denominator) (x.denominator * y.numerator)

end Binary64

end AgentWorkbench
