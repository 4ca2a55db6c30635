import AgentWorkbench.Number.Binary64

/-!
The shortest decimal that reads back as a given number. For one digit, two digits and so on, the
number's two neighbours on the grid of decimals with so many digits are tried; the first grid with
a neighbour that rounds to the number wins, and of two such neighbours the nearer one, the even
one if both are as near.
-/
namespace AgentWorkbench.Binary64

/-- A decimal `digits * 10 ^ scale`. -/
structure Decimal where
  digits : Nat
  scale : Int
  deriving DecidableEq, Repr, Inhabited

namespace Decimal

def numerator (d : Decimal) : Nat := d.digits * Nat.pow 10 d.scale.toNat

def denominator (d : Decimal) : Nat := Nat.pow 10 (-d.scale).toNat

def strip (d : Decimal) : Nat → Decimal
  | 0 => d
  | fuel + 1 => if d.digits % 10 = 0 then strip ⟨d.digits / 10, d.scale + 1⟩ fuel else d

end Decimal

/-- How many decimal digits stand before the point of `num / den`: the least `k` with
`num / den < 10 ^ k`, counted from the estimate `start`. -/
def pointAfter (num den : Nat) (start : Int) : Nat → Int
  | 0 => start
  | fuel + 1 =>
    if num * Nat.pow 10 (-start).toNat < den * Nat.pow 10 start.toNat then start
    else pointAfter num den (start + 1) fuel

def Decimal.readsAs (d : Decimal) (code : Nat) : Bool :=
  codeOfRatio d.numerator d.denominator = code

/-- The best decimal with its last digit at `10 ^ scale`, if one reads back. -/
def neighbour? (x : Binary64) (scale : Int) : Option Decimal :=
  let num := x.numerator * Nat.pow 10 (-scale).toNat
  let den := x.denominator * Nat.pow 10 scale.toNat
  let low : Decimal := ⟨num / den, scale⟩
  let high : Decimal := ⟨num / den + 1, scale⟩
  let twice := 2 * (num % den)
  let lowNearer := twice < den || (twice = den && low.digits % 2 = 0)
  match low.readsAs x.code, high.readsAs x.code with
  | true, true => some (if lowNearer then low else high)
  | true, false => some low
  | false, true => some high
  | false, false => none

def shortest (x : Binary64) : Decimal :=
  let point := pointAfter x.numerator x.denominator
    ((x.exponent + Nat.log2 x.mantissa) * 30103 / 100000 - 1) 4
  let found := (List.range 17).findSome? fun n => neighbour? x (point - (n + 1 : Nat))
  (found.getD ⟨x.numerator, 0⟩).strip 20

end AgentWorkbench.Binary64
