/-!
Natural numbers up to a bound, read from decimal digits. The digits are taken one by one; the
first that is no digit, or that leads past the bound, decides the error.
-/
namespace AgentWorkbench

inductive DigitError where
  | empty
  | invalidDigit
  | tooLarge
  deriving DecidableEq, Repr

namespace DigitError

def message : DigitError → String
  | empty => "cannot parse integer from empty string"
  | invalidDigit => "invalid digit found in string"
  | tooLarge => "number too large to fit in target type"

end DigitError

def takeDigits (bound : Nat) : (acc : Nat) → List Char → Except DigitError Nat
  | acc, [] => .ok acc
  | acc, c :: rest =>
    if c.isDigit then
      let next := acc * 10 + (c.toNat - '0'.toNat)
      if next ≤ bound then takeDigits bound next rest else .error .tooLarge
    else .error .invalidDigit

/-- The number that a text stands for; a plus sign may stand before its digits. -/
def parseBounded (bound : Nat) : List Char → Except DigitError Nat
  | [] => .error .empty
  | ['+'] => .error .invalidDigit
  | '+' :: c :: rest => takeDigits bound 0 (c :: rest)
  | cs => takeDigits bound 0 cs

end AgentWorkbench
