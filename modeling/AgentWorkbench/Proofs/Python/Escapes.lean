import AgentWorkbench.Python.Literal
import Mathlib.Data.Bool.AllAny
import Mathlib.Data.List.Chain
import Mathlib.Data.List.Infix
import Mathlib.Data.Nat.Digits.Defs
import Mathlib.Tactic.IntervalCases

/-!
The escapes in a literal. A text is written in parts, each of which is a character or an escape, and
is decoded to what its parts stand for, one after the other.
-/
namespace AgentWorkbench.Python

/-- The characters that stand for a text of their own behind a backslash. -/
def namedEscapes : List (Char × List Char) :=
  [('\n', []), ('\\', ['\\']), ('\'', ['\'']), ('"', ['"']), ('a', ['\x07']), ('b', ['\x08']),
    ('f', ['\x0c']), ('n', ['\n']), ('r', ['\r']), ('t', ['\t']), ('v', ['\x0b'])]

/-- The letters behind a backslash that hexadecimal digits follow, and how many of them. -/
def hexEscapes : List (Char × Nat) := [('x', 2), ('u', 4), ('U', 8)]

def octalDigits : List Char := ['0', '1', '2', '3', '4', '5', '6', '7']

def hexDigits : List Char :=
  ['0', '1', '2', '3', '4', '5', '6', '7', '8', '9', 'a', 'b', 'c', 'd', 'e', 'f', 'A', 'B', 'C',
    'D', 'E', 'F']

/-- The characters with which an escape goes on behind its backslash. -/
def escapeHeads : List Char := namedEscapes.map (·.1) ++ octalDigits ++ hexEscapes.map (·.1)

def digitOf (c : Char) : Nat := hexDigits.idxOf c.toLower

/-- The number that digits stand for, the first one counting most. -/
def valueOf (radix : Nat) (digits : List Char) : Nat :=
  Nat.ofDigits radix (digits.reverse.map digitOf)

/-- The numbers of characters: all code points but the surrogates. -/
def IsScalar (n : Nat) : Prop := n < 0xD800 ∨ 0xE000 ≤ n ∧ n < 0x110000

instance (n : Nat) : Decidable (IsScalar n) := inferInstanceAs (Decidable (_ ∨ _))

/-- The character with a number, or what was written if there is none. -/
def characterOr (n : Nat) (written : List Char) : List Char :=
  if IsScalar n then [Char.ofNat n] else written

inductive LiteralPart where
  | char (c : Char) (plain : c ≠ '\\')
  | named (c : Char) (text : List Char) (known : (c, text) ∈ namedEscapes)
  | octal (digits : List Char) (octal : ∀ d ∈ digits, d ∈ octalDigits)
    (length : 1 ≤ digits.length ∧ digits.length ≤ 3)
  | hex (letter : Char) (digits : List Char) (hex : ∀ d ∈ digits, d ∈ hexDigits)
    (length : (letter, digits.length) ∈ hexEscapes)
  | unknown (c : Char) (other : c ∉ escapeHeads)

namespace LiteralPart

def written : LiteralPart → List Char
  | char c _ => [c]
  | named c _ _ => ['\\', c]
  | octal digits _ _ => '\\' :: digits
  | hex letter digits _ _ => '\\' :: letter :: digits
  | unknown c _ => ['\\', c]

def denoted : LiteralPart → List Char
  | char c _ => [c]
  | named _ text _ => text
  | octal digits _ _ => characterOr (valueOf 8 digits) ('\\' :: digits)
  | hex letter digits _ _ => characterOr (valueOf 16 digits) ('\\' :: letter :: digits)
  | unknown c _ => ['\\', c]

/-- No octal digit comes right behind an escape with fewer than three of them. -/
def MayPrecede : LiteralPart → List Char → Prop
  | octal digits _ _, rest => digits.length < 3 → ∀ d ∈ rest.head?, d ∉ octalDigits
  | _, _ => True

end LiteralPart

/-! Digits. -/

theorem valueOf_append (radix : Nat) (digits : List Char) (d : Char) :
    valueOf radix (digits ++ [d]) = valueOf radix digits * radix + digitOf d := by
  rw [valueOf, List.reverse_append, List.map_append, List.reverse_singleton, List.map_singleton,
    List.singleton_append, Nat.ofDigits_cons, valueOf, Nat.mul_comm, Nat.add_comm]

theorem digitValue?_of_octal {d : Char} (h : d ∈ octalDigits) :
    digitValue? 8 d = some (digitOf d) := by
  have all : ∀ d ∈ octalDigits, digitValue? 8 d = some (digitOf d) :=
    List.all_iff_forall_prop.mp (by decide)
  exact all d h

theorem digitValue?_of_hex {d : Char} (h : d ∈ hexDigits) :
    digitValue? 16 d = some (digitOf d) := by
  have all : ∀ d ∈ hexDigits, digitValue? 16 d = some (digitOf d) :=
    List.all_iff_forall_prop.mp (by decide)
  exact all d h

/-- The characters whose numbers lie between two others. -/
theorem mem_of_between {a b : Nat} {chars : List Char}
    (all : ∀ n ∈ List.range' a (b + 1 - a), Char.ofNat n ∈ chars) {c : Char} (low : a ≤ c.toNat)
    (high : c.toNat ≤ b) : c ∈ chars := by
  have member := all c.toNat (List.mem_range'_1.mpr ⟨low, by omega⟩)
  rwa [Char.ofNat_toNat] at member

theorem isOctal_iff {d : Char} : isOctal d = true ↔ d ∈ octalDigits := by
  constructor
  · intro h
    simp only [isOctal, Bool.and_eq_true, decide_eq_true_eq, Char.le_def,
      UInt32.le_iff_toNat_le] at h
    exact mem_of_between (a := 48) (b := 55) (by decide) h.1 h.2
  · have all : ∀ d ∈ octalDigits, isOctal d = true := List.all_iff_forall_prop.mp (by decide)
    exact all d

theorem mem_hexDigits {d : Char} (h : digitValue? 16 d ≠ none) : d ∈ hexDigits := by
  have small : (if d.isDigit then d.toNat - 48 else if 'a' ≤ d ∧ d ≤ 'z' then d.toNat - 97 + 10
      else if 'A' ≤ d ∧ d ≤ 'Z' then d.toNat - 65 + 10 else 16) < 16 := by
    by_contra large
    exact h (if_neg large)
  simp only [Char.isDigit, Bool.and_eq_true, decide_eq_true_eq, ge_iff_le, Char.le_def,
    UInt32.le_iff_toNat_le] at small
  split_ifs at small with digit lower upper
  · exact mem_of_between (a := 48) (b := 57) (by decide) digit.1 digit.2
  · exact mem_of_between (a := 97) (b := 102) (by decide) lower.1 (by omega)
  · exact mem_of_between (a := 65) (b := 70) (by decide) upper.1 (by omega)
  · exact absurd small (Nat.lt_irrefl 16)

/-- The number of digits that have no sign before them. -/
def unsigned? (radix : Nat) (digits : List Char) : Option Nat :=
  digits.foldl (fun acc c => do return (← acc) * radix + (← digitValue? radix c)) (some 0)

theorem unsigned?_append (radix : Nat) (digits : List Char) (d : Char) :
    unsigned? radix (digits ++ [d]) = (unsigned? radix digits).bind fun n =>
      (digitValue? radix d).map fun value => n * radix + value := by
  rw [unsigned?, List.foldl_append, ← unsigned?, List.foldl_cons, List.foldl_nil]
  cases unsigned? radix digits <;> cases digitValue? radix d <;> rfl

theorem unsigned?_digits {radix : Nat} {digits : List Char}
    (h : ∀ d ∈ digits, digitValue? radix d = some (digitOf d)) :
    unsigned? radix digits = some (valueOf radix digits) := by
  induction digits using List.reverseRecOn with
  | nil => rfl
  | append_singleton digits d ih =>
      rw [unsigned?_append, ih fun e mem => h e (List.mem_append_left _ mem), h d (by simp),
        valueOf_append]
      rfl

theorem digits_of_unsigned? {radix : Nat} {digits : List Char} (h : unsigned? radix digits ≠ none) :
    ∀ d ∈ digits, digitValue? radix d ≠ none := by
  induction digits using List.reverseRecOn with
  | nil => nofun
  | append_singleton digits d ih =>
      rw [unsigned?_append] at h
      intro e mem missing
      rcases List.mem_append.mp mem with before | last
      · refine ih (fun none => h ?_) e before missing
        rw [none]
        rfl
      · obtain rfl := List.mem_singleton.mp last
        rw [missing] at h
        simp at h

theorem number?_unsigned {radix : Nat} {digits : List Char} (filled : digits ≠ [])
    (first : ∀ rest, digits ≠ '+' :: rest) : number? radix digits = unsigned? radix digits := by
  rw [number?, if_neg (mt List.isEmpty_iff.mp filled), unsigned?]
  exact first

theorem number?_signed {radix : Nat} {digits : List Char} (filled : digits ≠ []) :
    number? radix ('+' :: digits) = unsigned? radix digits :=
  if_neg (mt List.isEmpty_iff.mp filled)

theorem scalar?_eq (n : Nat) : scalar? n = if IsScalar n then some (Char.ofNat n) else none := by
  have valid : n.isValidChar ↔ IsScalar n := by
    simp only [Nat.isValidChar, IsScalar]
    omega
  by_cases h : n.isValidChar
  · rw [scalar?, dif_pos h, if_pos (valid.mp h), Char.ofNat, dif_pos h]
  · rw [scalar?, dif_neg h, if_neg (mt valid.mpr h)]

/-- An escape with digits stands for the character with that number. -/
theorem numericEscape_of_number? {radix n : Nat} {digits written : List Char}
    (h : number? radix digits = some n) :
    numericEscape radix digits written = characterOr n written := by
  rw [numericEscape, h, Option.bind_some, scalar?_eq, characterOr]
  split_ifs <;> rfl

/-! One escape. -/

section Escape

variable {c letter : Char} {text digits rest : List Char}

theorem escape_named (h : (c, text) ∈ namedEscapes) : escape c rest = (text, 0) := by
  simp only [namedEscapes, List.mem_cons, Prod.mk.injEq, List.not_mem_nil, or_false] at h
  rcases h with ⟨rfl, rfl⟩ | ⟨rfl, rfl⟩ | ⟨rfl, rfl⟩ | ⟨rfl, rfl⟩ | ⟨rfl, rfl⟩ | ⟨rfl, rfl⟩ |
    ⟨rfl, rfl⟩ | ⟨rfl, rfl⟩ | ⟨rfl, rfl⟩ | ⟨rfl, rfl⟩ | ⟨rfl, rfl⟩ <;> rfl

theorem letterEscape?_of_not_mem (h : c ∉ namedEscapes.map (·.1)) : letterEscape? c = none := by
  simp only [namedEscapes, List.map_cons, List.map_nil, List.mem_cons, List.not_mem_nil,
    or_false, not_or] at h
  simp only [letterEscape?, h, or_self, if_false]

theorem escape_unknown (h : c ∉ escapeHeads) : escape c rest = (['\\', c], 0) := by
  simp only [escapeHeads, List.mem_append, not_or] at h
  obtain ⟨⟨unnamed, undigit⟩, other⟩ := h
  have narrow : hexWidth? c = none := by
    simp only [hexEscapes, List.map_cons, List.map_nil, List.mem_cons, List.not_mem_nil, or_false,
      not_or] at other
    simp only [hexWidth?, other, if_false]
  rw [escape, letterEscape?_of_not_mem unnamed]
  simp only [mt isOctal_iff.mp undigit, Bool.false_eq_true, if_false, narrow]

theorem not_mem_of_digits {chars : List Char} (h : ∀ d ∈ digits, d ∈ chars) (c : Char)
    (other : c ∉ chars) (rest : List Char) : digits ≠ c :: rest := by
  rintro rfl
  exact other (h c List.mem_cons_self)

theorem numericEscape_octal (octal : ∀ d ∈ digits, d ∈ octalDigits) (filled : digits ≠ [])
    (written : List Char) :
    numericEscape 8 digits written = characterOr (valueOf 8 digits) written := by
  apply numericEscape_of_number?
  rw [number?_unsigned filled (not_mem_of_digits octal '+' (by decide)),
    unsigned?_digits fun d mem => digitValue?_of_octal (octal d mem)]

theorem numericEscape_hex (hex : ∀ d ∈ digits, d ∈ hexDigits) (filled : digits ≠ [])
    (written : List Char) :
    numericEscape 16 digits written = characterOr (valueOf 16 digits) written := by
  apply numericEscape_of_number?
  rw [number?_unsigned filled (not_mem_of_digits hex '+' (by decide)),
    unsigned?_digits fun d mem => digitValue?_of_hex (hex d mem)]

theorem unnamed_of_octal : ∀ d ∈ octalDigits, letterEscape? d = none :=
  List.all_iff_forall_prop.mp (by decide)

/-- No octal digit comes behind the first ones. -/
theorem takeWhile_octal {n : Nat} (h : 0 < n → ∀ d ∈ rest.head?, d ∉ octalDigits) :
    (rest.take n).takeWhile isOctal = [] := by
  cases n with
  | zero => rfl
  | succ n =>
      cases rest with
      | nil => rfl
      | cons d rest =>
          have other : ¬ isOctal d := mt isOctal_iff.mp (h (Nat.succ_pos n) d rfl)
          rw [List.take_succ_cons, List.takeWhile_cons_of_neg other]

theorem escape_octal {d : Char} (octal : ∀ e ∈ d :: digits, e ∈ octalDigits)
    (most : digits.length ≤ 2) (ends : digits.length < 2 → ∀ e ∈ rest.head?, e ∉ octalDigits) :
    escape d (digits ++ rest) =
      (characterOr (valueOf 8 (d :: digits)) ('\\' :: d :: digits), digits.length) := by
  obtain ⟨first, others⟩ := List.forall_mem_cons.mp octal
  have taken : ((digits ++ rest).take 2).takeWhile isOctal = digits := by
    rw [List.take_append, List.take_of_length_le most,
      List.takeWhile_append_of_pos fun e mem => isOctal_iff.mpr (others e mem),
      takeWhile_octal fun more => ends (Nat.lt_of_sub_pos more), List.append_nil]
  rw [escape, unnamed_of_octal d first]
  simp only [isOctal_iff.mpr first, if_true, taken, List.length_cons, Nat.add_sub_cancel]
  rw [numericEscape_octal octal (List.cons_ne_nil d digits)]

/-- An escape with hexadecimal digits takes its digits, whatever they are. -/
theorem escape_hexEscape {width : Nat} (known : (letter, width) ∈ hexEscapes) : escape letter rest =
    (if (rest.take width).length = width then
        numericEscape 16 (rest.take width) ('\\' :: letter :: rest.take width)
      else '\\' :: letter :: rest.take width, (rest.take width).length) := by
  simp only [hexEscapes, List.mem_cons, Prod.mk.injEq, List.not_mem_nil, or_false] at known
  rcases known with ⟨rfl, rfl⟩ | ⟨rfl, rfl⟩ | ⟨rfl, rfl⟩ <;> rfl

theorem hexEscapes_pos : ∀ e ∈ hexEscapes, 0 < e.2 := by decide

theorem escape_hex (hex : ∀ d ∈ digits, d ∈ hexDigits)
    (length : (letter, digits.length) ∈ hexEscapes) : escape letter (digits ++ rest) =
      (characterOr (valueOf 16 digits) ('\\' :: letter :: digits), digits.length) := by
  have filled : digits ≠ [] := List.ne_nil_of_length_pos (hexEscapes_pos _ length)
  rw [escape_hexEscape length, List.take_left, if_pos rfl, numericEscape_hex hex filled]

end Escape

/-! Texts. -/

theorem decodeFrom_eq_drop (skip : Nat) (cs : List Char) :
    decodeFrom skip cs = decodeFrom 0 (cs.drop skip) := by
  induction skip generalizing cs with
  | zero => rfl
  | succ skip ih =>
      cases cs with
      | nil => rfl
      | cons c rest => exact ih rest

theorem decodeEscapes_char {c : Char} (plain : c ≠ '\\') (rest : List Char) :
    decodeEscapes (c :: rest) = c :: decodeEscapes rest := by
  simp [decodeEscapes, decodeFrom, plain]

theorem decodeEscapes_escape (c : Char) (rest : List Char) : decodeEscapes ('\\' :: c :: rest) =
    (escape c rest).1 ++ decodeEscapes (rest.drop (escape c rest).2) := by
  have taken : decodeEscapes ('\\' :: c :: rest) =
      (escape c rest).1 ++ decodeFrom ((escape c rest).2 + 1) (c :: rest) := rfl
  rw [taken, decodeFrom_eq_drop]
  rfl

/-- A part is decoded to what it stands for, and then what follows it is decoded. -/
theorem LiteralPart.decodeEscapes_append (part : LiteralPart) {rest : List Char}
    (ends : part.MayPrecede rest) :
    decodeEscapes (part.written ++ rest) = part.denoted ++ decodeEscapes rest := by
  cases part with
  | char c plain => exact decodeEscapes_char plain rest
  | named c text known =>
      refine (decodeEscapes_escape c rest).trans ?_
      rw [escape_named known]
      rfl
  | octal digits octal length =>
      cases digits with
      | nil => exact absurd length.1 (by decide)
      | cons d digits =>
          have most : digits.length ≤ 2 := Nat.le_of_succ_le_succ length.2
          have short (fewer : digits.length < 2) : ∀ e ∈ rest.head?, e ∉ octalDigits :=
            ends (Nat.succ_lt_succ fewer)
          refine (decodeEscapes_escape d (digits ++ rest)).trans ?_
          rw [escape_octal octal most short, List.drop_left]
          rfl
  | hex letter digits hex length =>
      refine (decodeEscapes_escape letter (digits ++ rest)).trans ?_
      rw [escape_hex hex length, List.drop_left]
      rfl
  | unknown c other =>
      refine (decodeEscapes_escape c rest).trans ?_
      rw [escape_unknown other]
      rfl

theorem LiteralPart.mayPrecede_nil (part : LiteralPart) : part.MayPrecede [] := by
  cases part with
  | octal digits octal length => exact fun _ => nofun
  | char _ _ | named _ _ _ | hex _ _ _ _ | unknown _ _ => trivial

/-- Only the first character matters to the part before it. -/
theorem LiteralPart.MayPrecede.of_head? {part : LiteralPart} {text rest : List Char}
    (h : part.MayPrecede text) (same : rest.head? = text.head?) : part.MayPrecede rest := by
  cases part with
  | octal digits octal length =>
      rw [MayPrecede, same]
      exact h
  | char _ _ | named _ _ _ | hex _ _ _ _ | unknown _ _ => trivial

/-- The parts of a text, none of which the next one lengthens. -/
def LiteralPart.Separate (parts : List LiteralPart) : Prop :=
  parts.IsChain fun part next => part.MayPrecede next.written

/-- A text in parts is decoded to what its parts stand for. -/
theorem decodeEscapes_parts {parts : List LiteralPart} (separate : LiteralPart.Separate parts) :
    decodeEscapes (parts.flatMap LiteralPart.written) = parts.flatMap LiteralPart.denoted := by
  induction parts with
  | nil => rfl
  | cons part parts ih =>
      have ends : part.MayPrecede (parts.flatMap LiteralPart.written) := by
        cases parts with
        | nil => exact part.mayPrecede_nil
        | cons next more =>
            refine (List.isChain_cons_cons.mp separate).1.of_head? ?_
            rw [List.flatMap_cons]
            cases next <;> rfl
      rw [List.flatMap_cons, part.decodeEscapes_append ends, ih separate.tail, List.flatMap_cons]

/-- Parts that are hard to tell apart: escapes that give backslashes and digits, and numbers of no
character. -/
def mixedParts : List LiteralPart :=
  [.named '\\' ['\\'] (by decide), .char 'n' (by decide),
    .octal ['7'] (by simp [octalDigits]) (by decide), .char '8' (by decide),
    .octal ['1', '0', '1'] (by simp [octalDigits]) (by decide), .char '1' (by decide),
    .hex 'u' ['d', '8', '0', '0'] (by simp [hexDigits]) (by decide),
    .hex 'x' ['4', '1'] (by simp [hexDigits]) (by decide), .unknown 'd' (by decide),
    .named '\n' [] (by decide), .octal ['0'] (by simp [octalDigits]) (by decide)]

theorem decodeEscapes_mixedParts : LiteralPart.Separate mixedParts ∧
    decodeEscapes "\\\\n\\78\\1011\\ud800\\x41\\d\\\n\\0".toList =
      "\\n\x078A1\\ud800A\\d\x00".toList := by
  have separate : LiteralPart.Separate mixedParts := by
    simp [LiteralPart.Separate, mixedParts, LiteralPart.MayPrecede, LiteralPart.written,
      octalDigits]
  refine ⟨separate, ?_⟩
  have written : mixedParts.flatMap LiteralPart.written =
      "\\\\n\\78\\1011\\ud800\\x41\\d\\\n\\0".toList := by decide
  have denoted : mixedParts.flatMap LiteralPart.denoted =
      "\\n\x078A1\\ud800A\\d\x00".toList := by decide
  rw [← written, ← denoted]
  exact decodeEscapes_parts separate

end AgentWorkbench.Python
