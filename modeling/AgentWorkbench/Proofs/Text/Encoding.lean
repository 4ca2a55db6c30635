import AgentWorkbench.Text.Utf8
import Mathlib.Data.List.Induction
import Mathlib.Tactic.SplitIfs

/-!
Which octets a decoder takes to a sequence. A run of octets is taken exactly if the encoding of
some character starts with it, and taken to be whole exactly if it is that encoding.
-/
namespace AgentWorkbench.Text.Utf8

/-- The front of a sequence: its first octet tells how many there may be, and each further one
extends those before it. -/
def IsRun : List UInt8 → Prop
  | [a] => 1 ≤ width a
  | [a, b] => 2 ≤ width a ∧ secondFits a b = true
  | [a, b, c] => 3 ≤ width a ∧ secondFits a b = true ∧ isContinuation c = true
  | [a, b, c, d] =>
    4 ≤ width a ∧ secondFits a b = true ∧ isContinuation c = true ∧ isContinuation d = true
  | _ => False

/-- All the octets that the first one tells of. -/
def IsWhole (part : List UInt8) : Prop :=
  IsRun part ∧ part.length = width (part.headD 0)

/-! Octets by their values. -/

theorem width_cases (a : UInt8) :
    (width a = 1 ∧ a.toNat < 0x80) ∨ (width a = 2 ∧ 0xC2 ≤ a.toNat ∧ a.toNat ≤ 0xDF) ∨
      (width a = 3 ∧ 0xE0 ≤ a.toNat ∧ a.toNat ≤ 0xEF) ∨
      (width a = 4 ∧ 0xF0 ≤ a.toNat ∧ a.toNat ≤ 0xF4) ∨
      (width a = 0 ∧ 0x80 ≤ a.toNat ∧ (a.toNat < 0xC2 ∨ 0xF4 < a.toNat)) := by
  simp only [width, Bool.and_eq_true, decide_eq_true_eq, UInt8.le_iff_toNat_le,
    UInt8.lt_iff_toNat_lt, UInt8.reduceToNat]
  split_ifs <;> omega

theorem isContinuation_iff {b : UInt8} :
    isContinuation b = true ↔ 0x80 ≤ b.toNat ∧ b.toNat ≤ 0xBF := by
  simp [isContinuation, UInt8.le_iff_toNat_le]

theorem secondFits_iff {a b : UInt8} :
    secondFits a b = true ↔ (0x80 ≤ b.toNat ∧ b.toNat ≤ 0xBF) ∧
      (a.toNat = 0xE0 → 0xA0 ≤ b.toNat) ∧ (a.toNat = 0xED → b.toNat ≤ 0x9F) ∧
      (a.toNat = 0xF0 → 0x90 ≤ b.toNat) ∧ (a.toNat = 0xF4 → b.toNat ≤ 0x8F) := by
  simp only [secondFits, isContinuation, ← UInt8.toNat_inj, UInt8.le_iff_toNat_le,
    UInt8.reduceToNat]
  split_ifs <;> simp only [Bool.and_eq_true, decide_eq_true_eq] <;> omega

theorem toNat_toUInt8 {n : Nat} (h : n < 0x100) : n.toUInt8.toNat = n :=
  UInt8.toNat_ofNat_of_lt' h

theorem toUInt8_eq {n : Nat} {b : UInt8} (h : n = b.toNat) : n.toUInt8 = b := by
  rw [h]
  exact UInt8.ofNat_toNat

theorem toNat_ofNat {n : Nat} (h : n < 0xD800 ∨ 0xDFFF < n ∧ n < 0x110000) :
    (Char.ofNat n).toNat = n := by
  have valid : n.isValidChar := h
  rw [Char.ofNat, dif_pos valid]
  rfl

section CodePoint

variable (a b c d : UInt8)

theorem codePoint_one : codePoint [a] = a.toNat := rfl

theorem codePoint_two :
    codePoint [a, b] = (a.toNat - 0xC0) * 0x40 + (b.toNat - 0x80) := rfl

theorem codePoint_three :
    codePoint [a, b, c] =
      ((a.toNat - 0xE0) * 0x40 + (b.toNat - 0x80)) * 0x40 + (c.toNat - 0x80) := rfl

theorem codePoint_four :
    codePoint [a, b, c, d] =
      (((a.toNat - 0xF0) * 0x40 + (b.toNat - 0x80)) * 0x40 + (c.toNat - 0x80)) * 0x40 +
        (d.toNat - 0x80) := rfl

end CodePoint

/-! Encodings are whole runs. -/

/-- The encoding of a character is a whole run with the character's code point. -/
theorem encodeChar_whole (c : Char) :
    IsWhole (encodeChar c) ∧ codePoint (encodeChar c) = c.toNat := by
  have valid : c.toNat < 0xD800 ∨ 0xDFFF < c.toNat ∧ c.toNat < 0x110000 := c.valid
  rw [encodeChar]
  generalize c.toNat = n at valid
  split_ifs with h₁ h₂ h₃
  · have a := toNat_toUInt8 (n := n) (by omega)
    have wa := width_cases n.toUInt8
    refine ⟨⟨?_, ?_⟩, a⟩
    · simp only [IsRun]; omega
    · simp only [List.length_cons, List.length_nil, List.headD_cons]; omega
  · have a := toNat_toUInt8 (n := 0xC0 + n / 0x40) (by omega)
    have b := toNat_toUInt8 (n := 0x80 + n % 0x40) (by omega)
    have wa := width_cases (0xC0 + n / 0x40).toUInt8
    refine ⟨⟨?_, ?_⟩, ?_⟩
    · simp only [IsRun, secondFits_iff]; omega
    · simp only [List.length_cons, List.length_nil, List.headD_cons]; omega
    · rw [codePoint_two, a, b]; omega
  · have a := toNat_toUInt8 (n := 0xE0 + n / 0x1000) (by omega)
    have b := toNat_toUInt8 (n := 0x80 + n / 0x40 % 0x40) (by omega)
    have c := toNat_toUInt8 (n := 0x80 + n % 0x40) (by omega)
    have wa := width_cases (0xE0 + n / 0x1000).toUInt8
    refine ⟨⟨?_, ?_⟩, ?_⟩
    · simp only [IsRun, secondFits_iff, isContinuation_iff]; omega
    · simp only [List.length_cons, List.length_nil, List.headD_cons]; omega
    · rw [codePoint_three, a, b, c]; omega
  · have a := toNat_toUInt8 (n := 0xF0 + n / 0x40000) (by omega)
    have b := toNat_toUInt8 (n := 0x80 + n / 0x1000 % 0x40) (by omega)
    have c := toNat_toUInt8 (n := 0x80 + n / 0x40 % 0x40) (by omega)
    have d := toNat_toUInt8 (n := 0x80 + n % 0x40) (by omega)
    have wa := width_cases (0xF0 + n / 0x40000).toUInt8
    refine ⟨⟨?_, ?_⟩, ?_⟩
    · simp only [IsRun, secondFits_iff, isContinuation_iff]; omega
    · simp only [List.length_cons, List.length_nil, List.headD_cons]; omega
    · rw [codePoint_four, a, b, c, d]; omega

/-- A whole run is the encoding of the character that it stands for. -/
theorem IsWhole.encodeChar_eq {part : List UInt8} (h : IsWhole part) :
    encodeChar (Char.ofNat (codePoint part)) = part := by
  obtain ⟨run, full⟩ := h
  match part, run, full with
  | [a], run, full =>
    have wa := width_cases a
    simp only [List.length_cons, List.length_nil, List.headD_cons] at full
    have code : (Char.ofNat a.toNat).toNat = a.toNat := toNat_ofNat (by omega)
    rw [codePoint_one, encodeChar, code, if_pos (by omega), toUInt8_eq rfl]
  | [a, b], ⟨_, fits⟩, full =>
    have wa := width_cases a
    rw [secondFits_iff] at fits
    simp only [List.length_cons, List.length_nil, List.headD_cons] at full
    have code := toNat_ofNat (n := codePoint [a, b]) (by rw [codePoint_two]; omega)
    rw [encodeChar, code, codePoint_two, if_neg (by omega), if_pos (by omega), toUInt8_eq (b := a) (by omega),
      toUInt8_eq (b := b) (by omega)]
  | [a, b, c], ⟨_, fits, hc⟩, full =>
    have wa := width_cases a
    rw [secondFits_iff] at fits
    rw [isContinuation_iff] at hc
    simp only [List.length_cons, List.length_nil, List.headD_cons] at full
    have code := toNat_ofNat (n := codePoint [a, b, c]) (by rw [codePoint_three]; omega)
    rw [encodeChar, code, codePoint_three, if_neg (by omega), if_neg (by omega), if_pos (by omega), toUInt8_eq (b := a) (by omega),
      toUInt8_eq (b := b) (by omega), toUInt8_eq (b := c) (by omega)]
  | [a, b, c, d], ⟨_, fits, hc, hd⟩, full =>
    have wa := width_cases a
    rw [secondFits_iff] at fits
    rw [isContinuation_iff] at hc hd
    simp only [List.length_cons, List.length_nil, List.headD_cons] at full
    have code := toNat_ofNat (n := codePoint [a, b, c, d]) (by rw [codePoint_four]; omega)
    rw [encodeChar, code, codePoint_four, if_neg (by omega), if_neg (by omega), if_neg (by omega), toUInt8_eq (b := a) (by omega),
      toUInt8_eq (b := b) (by omega), toUInt8_eq (b := c) (by omega),
      toUInt8_eq (b := d) (by omega)]

/-! Runs octet by octet. -/

theorem IsRun.ne_nil {part : List UInt8} (h : IsRun part) : part ≠ [] := by
  rintro rfl
  exact h

theorem IsRun.length_le {part : List UInt8} (h : IsRun part) :
    part.length ≤ width (part.headD 0) := by
  match part, h with
  | [_], wide => exact wide
  | [_, _], ⟨wide, _⟩ | [_, _, _], ⟨wide, _⟩ | [_, _, _, _], ⟨wide, _⟩ => exact wide

theorem width_le (a : UInt8) : width a ≤ 4 := by
  have := width_cases a
  omega

theorem headD_append {part : List UInt8} (ne : part ≠ []) (more : List UInt8) :
    (part ++ more).headD 0 = part.headD 0 := by
  cases part with
  | nil => exact absurd rfl ne
  | cons _ _ => rfl

theorem isRun_concat_iff {part : List UInt8} (ne : part ≠ []) {b : UInt8} :
    IsRun (part ++ [b]) ↔
      IsRun part ∧ part.length < width (part.headD 0) ∧ extends? part b = true := by
  match part, ne with
  | [a], _ =>
    simp only [List.cons_append, List.nil_append, IsRun, extends?, List.length_cons,
      List.length_nil, List.headD_cons]
    grind
  | [a, c], _ =>
    simp only [List.cons_append, List.nil_append, IsRun, extends?, List.length_cons,
      List.length_nil, List.headD_cons]
    grind
  | [a, c, d], _ =>
    simp only [List.cons_append, List.nil_append, IsRun, extends?, List.length_cons,
      List.length_nil, List.headD_cons]
    grind
  | a :: c :: d :: e :: more, _ =>
    have four := width_le a
    constructor
    · intro run
      have := run.length_le
      simp only [List.cons_append, List.length_cons, List.length_append, List.headD_cons] at this
      omega
    · rintro ⟨-, short, -⟩
      simp only [List.length_cons, List.headD_cons] at short
      omega

theorem IsRun.of_append {part more : List UInt8} (h : IsRun (part ++ more)) (ne : part ≠ []) :
    IsRun part := by
  induction more using List.reverseRecOn with
  | nil => simpa using h
  | append_singleton more b ih =>
    rw [← List.append_assoc, isRun_concat_iff (by simp [ne])] at h
    exact ih h.1

/-- An unfinished run can go on. -/
theorem IsRun.exists_extends {part : List UInt8} (h : IsRun part)
    (short : part.length < width (part.headD 0)) : ∃ b, IsRun (part ++ [b]) := by
  suffices ∃ b, extends? part b = true by
    obtain ⟨b, fits⟩ := this
    exact ⟨b, (isRun_concat_iff h.ne_nil).mpr ⟨h, short, fits⟩⟩
  match part, h with
  | [a], _ =>
    by_cases least : a = 0xE0 ∨ a = 0xF0
    · obtain rfl | rfl := least
      · exact ⟨0xA0, rfl⟩
      · exact ⟨0x90, rfl⟩
    · refine ⟨0x80, secondFits_iff.mpr ?_⟩
      simp only [← UInt8.toNat_inj, UInt8.reduceToNat] at least ⊢
      omega
  | _ :: _ :: _, _ => exact ⟨0x80, rfl⟩

theorem IsRun.exists_whole {part : List UInt8} (h : IsRun part) :
    ∃ more, IsWhole (part ++ more) := by
  generalize room : width (part.headD 0) - part.length = n
  induction n generalizing part with
  | zero =>
    have := h.length_le
    refine ⟨[], ?_, ?_⟩ <;> rw [List.append_nil]
    · exact h
    · omega
  | succ n ih =>
    obtain ⟨b, longer⟩ := h.exists_extends (by omega)
    have less : width ((part ++ [b]).headD 0) - (part ++ [b]).length = n := by
      rw [headD_append h.ne_nil, List.length_append, List.length_singleton]
      omega
    obtain ⟨more, whole⟩ := ih longer less
    exact ⟨b :: more, by simpa using whole⟩

/-- The octets that a decoder takes are those with which the encoding of a character starts. -/
theorem isRun_iff {part : List UInt8} :
    IsRun part ↔ part ≠ [] ∧ ∃ c, part <+: encodeChar c := by
  constructor
  · intro run
    obtain ⟨more, whole⟩ := run.exists_whole
    exact ⟨run.ne_nil, _, more, whole.encodeChar_eq.symm⟩
  · rintro ⟨ne, c, more, whole⟩
    have run : IsRun (part ++ more) := by
      rw [whole]
      exact (encodeChar_whole c).1.1
    exact run.of_append ne

theorem isWhole_iff {part : List UInt8} : IsWhole part ↔ ∃ c, part = encodeChar c := by
  constructor
  · intro whole
    exact ⟨_, whole.encodeChar_eq.symm⟩
  · rintro ⟨c, rfl⟩
    exact (encodeChar_whole c).1

theorem encodeChar_ne_nil (c : Char) : encodeChar c ≠ [] :=
  (encodeChar_whole c).1.1.ne_nil

theorem codePoint_encodeChar (c : Char) : Char.ofNat (codePoint (encodeChar c)) = c := by
  rw [(encodeChar_whole c).2, Char.ofNat_toNat]

theorem encodeChar_injective : Function.Injective encodeChar := by
  intro c c' same
  rw [← codePoint_encodeChar c, same, codePoint_encodeChar]

/-- No encoding starts with a shorter one. -/
theorem eq_of_encodeChar_isPrefix {c c' : Char} (h : encodeChar c <+: encodeChar c') : c = c' := by
  obtain ⟨more, cut⟩ := h
  have short := (encodeChar_whole c).1.2
  have long := (encodeChar_whole c').1.2
  rw [← cut, headD_append (encodeChar_ne_nil c), ← short, List.length_append] at long
  have nothing : more = [] := List.eq_nil_of_length_eq_zero (by omega)
  rw [nothing, List.append_nil] at cut
  exact encodeChar_injective cut

/-! Characters of one octet. -/

theorem encode_cons_of_ascii {c : Char} (h : c.toNat < 0x80) (cs : List Char) :
    encode (c :: cs) = c.toNat.toUInt8 :: encode cs := by
  rw [encode, List.flatMap_cons, encodeChar, if_pos h]
  rfl

/-- Octets keep the order of texts without other characters than ASCII. -/
theorem encode_lt_of_ascii {xs ys : List Char} (hx : ∀ c ∈ xs, c.toNat < 0x80)
    (hy : ∀ c ∈ ys, c.toNat < 0x80) (h : xs < ys) : encode xs < encode ys := by
  induction xs generalizing ys with
  | nil =>
      cases ys with
      | nil => exact absurd h (List.lt_irrefl _)
      | cons d ys =>
          rw [encode_cons_of_ascii (hy d List.mem_cons_self)]
          exact List.nil_lt_cons _ _
  | cons c xs ih =>
      cases ys with
      | nil => exact absurd h (List.not_lt_nil _)
      | cons d ys =>
          obtain ⟨hc, hxs⟩ := List.forall_mem_cons.mp hx
          obtain ⟨hd, hys⟩ := List.forall_mem_cons.mp hy
          rw [encode_cons_of_ascii hc, encode_cons_of_ascii hd, List.cons_lt_cons_iff]
          obtain lt | ⟨rfl, lt⟩ := List.cons_lt_cons_iff.mp h
          · refine .inl (UInt8.lt_iff_toNat_lt.mpr ?_)
            rw [toNat_toUInt8 (by omega), toNat_toUInt8 (by omega)]
            exact lt
          · exact .inr ⟨rfl, ih hxs hys lt⟩

end AgentWorkbench.Text.Utf8
