import AgentWorkbench.Text.Lines
import AgentWorkbench.Text.Utf8

/-!
Targets of requests: a path, perhaps with a query. Characters that have to be encoded make a
target invalid. The parameters of a path are percent-decoded.
-/
namespace AgentWorkbench

namespace Target

def isPathOctet (b : UInt8) : Bool :=
  b = 0x21 || (0x24 ≤ b && b ≤ 0x3B) || b = 0x3D || (0x40 ≤ b && b ≤ 0x5F) ||
    (0x61 ≤ b && b ≤ 0x7A) || b = 0x7C || 0x7E ≤ b || b = 0x22 || b = 0x7B || b = 0x7D

def isQueryOctet (b : UInt8) : Bool :=
  b = 0x21 || (0x24 ≤ b && b ≤ 0x3B) || b = 0x3D || 0x3F ≤ b

def allOctets (p : UInt8 → Bool) (cs : List Char) : Bool := (Text.Utf8.encode cs).all p

/-- The path of a target that is a path with perhaps a query; a fragment is dropped. -/
def pathOf? (cs : List Char) : Option (List Char) :=
  let cs := cs.takeWhile (· ≠ '#')
  let path := cs.takeWhile (· ≠ '?')
  let query := (cs.dropWhile (· ≠ '?')).drop 1
  if allOctets isPathOctet path && allOctets isQueryOctet query then some path else none

/-- The target after its scheme and authority, if it has them. -/
def afterAuthority? (cs : List Char) : Option (List Char) :=
  let rest := cs.dropWhile Char.isAlpha
  if rest.take 3 = "://".toList then
    some ((rest.drop 3).dropWhile fun c => c ≠ '/' && c ≠ '?' && c ≠ '#')
  else none

def path? (target : String) : Option (List Char) :=
  match target.toList with
  | [] => none
  | '/' :: rest => pathOf? ('/' :: rest)
  | cs =>
    match afterAuthority? cs with
    | some [] => some ['/']
    | some rest => pathOf? rest
    | none => if allOctets isPathOctet cs then some [] else none

def hexValue? (c : Char) : Option Nat :=
  if c.isDigit then some (c.toNat - '0'.toNat)
  else if 'a' ≤ c ∧ c ≤ 'f' then some (c.toNat - 'a'.toNat + 10)
  else if 'A' ≤ c ∧ c ≤ 'F' then some (c.toNat - 'A'.toNat + 10)
  else none

/-- The octets of a text in which a percent sign with two hexadecimal digits stands for an octet. A
percent sign without them stands for itself. -/
def percentOctets : List Char → List UInt8
  | '%' :: a :: b :: rest =>
    match hexValue? a, hexValue? b with
    | some high, some low => UInt8.ofNat (high * 16 + low) :: percentOctets rest
    | _, _ => Text.Utf8.encodeChar '%' ++ percentOctets (a :: b :: rest)
  | c :: rest => Text.Utf8.encodeChar c ++ percentOctets rest
  | [] => []

/-- The text of a parameter; `none` if its octets are no text. -/
def decodeParameter? (cs : List Char) : Option String :=
  (Text.Utf8.decode? (percentOctets cs)).map String.ofList

end Target

end AgentWorkbench
