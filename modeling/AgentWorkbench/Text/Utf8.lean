/-!
UTF-8, octet by octet. A decoder holds the octets of an unfinished sequence; each octet either
extends it, completes a character, or shows the sequence to be malformed. A maximal malformed run
becomes one replacement character, and so does a sequence that the input leaves unfinished.
-/
namespace AgentWorkbench.Text.Utf8

def replacement : Char := '\uFFFD'

def isContinuation (b : UInt8) : Bool :=
  0x80 ≤ b && b ≤ 0xBF

/-- How many octets a sequence with this first octet has; 0 when none starts with it. -/
def width (lead : UInt8) : Nat :=
  if lead < 0x80 then 1
  else if 0xC2 ≤ lead && lead ≤ 0xDF then 2
  else if 0xE0 ≤ lead && lead ≤ 0xEF then 3
  else if 0xF0 ≤ lead && lead ≤ 0xF4 then 4
  else 0

/-- Which second octets keep the sequence well formed: no overlong form, no surrogate and nothing
past the last code point. -/
def secondFits (lead b : UInt8) : Bool :=
  if lead = 0xE0 then 0xA0 ≤ b && b ≤ 0xBF
  else if lead = 0xED then 0x80 ≤ b && b ≤ 0x9F
  else if lead = 0xF0 then 0x90 ≤ b && b ≤ 0xBF
  else if lead = 0xF4 then 0x80 ≤ b && b ≤ 0x8F
  else isContinuation b

def extends? : List UInt8 → UInt8 → Bool
  | [], _ => false
  | [lead], b => secondFits lead b
  | _ :: _ :: _, b => isContinuation b

def codePoint : List UInt8 → Nat
  | [a] => a.toNat
  | [a, b] => (a.toNat - 0xC0) * 0x40 + (b.toNat - 0x80)
  | [a, b, c] => ((a.toNat - 0xE0) * 0x40 + (b.toNat - 0x80)) * 0x40 + (c.toNat - 0x80)
  | [a, b, c, d] =>
    (((a.toNat - 0xF0) * 0x40 + (b.toNat - 0x80)) * 0x40 + (c.toNat - 0x80)) * 0x40 +
      (d.toNat - 0x80)
  | _ => replacement.toNat

/-- A decoder between octets: the octets of the sequence it is inside of. -/
structure Decoder where
  pending : List UInt8 := []
  deriving DecidableEq, Repr, Inhabited

namespace Decoder

def start (b : UInt8) : List Char × Decoder :=
  match width b with
  | 0 => ([replacement], {})
  | 1 => ([Char.ofNat b.toNat], {})
  | _ => ([], ⟨[b]⟩)

/-- Takes one octet: the characters that it settles, and the decoder after it. -/
def feed (d : Decoder) (b : UInt8) : List Char × Decoder :=
  match d.pending with
  | [] => start b
  | lead :: more =>
    if extends? (lead :: more) b then
      let octets := lead :: more ++ [b]
      if octets.length = width lead then ([Char.ofNat (codePoint octets)], {})
      else ([], ⟨octets⟩)
    else
      let (cs, next) := start b
      (replacement :: cs, next)

def decode (d : Decoder) : List UInt8 → List Char × Decoder
  | [] => ([], d)
  | b :: bs =>
    let (cs, next) := d.feed b
    let (more, last) := next.decode bs
    (cs ++ more, last)

/-- What the end of the input settles: an unfinished sequence is malformed. -/
def finish (d : Decoder) : List Char :=
  if d.pending.isEmpty then [] else [replacement]

end Decoder

def decodeLossy (bs : List UInt8) : List Char :=
  let (cs, d) := Decoder.decode {} bs
  cs ++ d.finish

def decode? (bs : List UInt8) : Option (List Char) :=
  let rec go (d : Decoder) : List UInt8 → Option (List Char)
    | [] => if d.pending.isEmpty then some [] else none
    | b :: bs =>
      if d.pending.isEmpty then
        match width b with
        | 0 => none
        | 1 => (go {} bs).map (Char.ofNat b.toNat :: ·)
        | _ => go ⟨[b]⟩ bs
      else if extends? d.pending b then
        let octets := d.pending ++ [b]
        if octets.length = width (octets.headD 0) then
          (go {} bs).map (Char.ofNat (codePoint octets) :: ·)
        else go ⟨octets⟩ bs
      else none
  go {} bs

def encodeChar (c : Char) : List UInt8 :=
  let n := c.toNat
  if n < 0x80 then [n.toUInt8]
  else if n < 0x800 then [(0xC0 + n / 0x40).toUInt8, (0x80 + n % 0x40).toUInt8]
  else if n < 0x10000 then
    [(0xE0 + n / 0x1000).toUInt8, (0x80 + n / 0x40 % 0x40).toUInt8, (0x80 + n % 0x40).toUInt8]
  else
    [(0xF0 + n / 0x40000).toUInt8, (0x80 + n / 0x1000 % 0x40).toUInt8,
      (0x80 + n / 0x40 % 0x40).toUInt8, (0x80 + n % 0x40).toUInt8]

def encode (cs : List Char) : List UInt8 :=
  cs.flatMap encodeChar

def size : List Char → Nat
  | [] => 0
  | c :: cs => c.utf8Size + size cs

theorem Decoder.decode_append (d : Decoder) (xs ys : List UInt8) :
    d.decode (xs ++ ys) =
      ((d.decode xs).1 ++ ((d.decode xs).2.decode ys).1, ((d.decode xs).2.decode ys).2) := by
  induction xs generalizing d with
  | nil => simp [decode]
  | cons b bs ih => simp [decode, ih]

end AgentWorkbench.Text.Utf8
