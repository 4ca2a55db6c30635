import AgentWorkbench.Proofs.Python.Escapes

/-!
Texts in which no backslash starts an escape. Such a text is decoded to itself, unless a letter that
wants hexadecimal digits comes before a sign and digits, which are read as a number.
-/
namespace AgentWorkbench.Python

/-- Whether a backslash stands here with all that makes it an escape. -/
def startsEscape : List Char → Bool
  | '\\' :: c :: rest =>
    (namedEscapes.map (·.1)).contains c || octalDigits.contains c ||
      hexEscapes.any fun (letter, width) =>
        c = letter && (rest.take width).length = width && (rest.take width).all hexDigits.contains
  | _ => false

/-- No backslash starts an escape. -/
def NoEscapes (text : List Char) : Prop := ∀ tail ∈ text.tails, startsEscape tail = false

instance (text : List Char) : Decidable (NoEscapes text) :=
  inferInstanceAs (Decidable (∀ tail ∈ text.tails, _))

/-- The front of a text that has been read: characters, backslashes before a character with which
no escape starts, and a letter before digits with as many characters as it has digits. -/
inductive Passed : List Char → Prop where
  | nil : Passed []
  | char {c : Char} {rest : List Char} : c ≠ '\\' → Passed rest → Passed (c :: rest)
  | unknown {c : Char} {rest : List Char} : c ∉ escapeHeads → Passed rest →
    Passed ('\\' :: c :: rest)
  | hex {letter : Char} {taken rest : List Char} : (letter, taken.length) ∈ hexEscapes →
    Passed rest → Passed ('\\' :: letter :: (taken ++ rest))

/-- An escape with a plus sign for its first digit. -/
inductive Signed : List Char → Prop where
  | mk {letter : Char} {digits : List Char} : (letter, digits.length + 1) ∈ hexEscapes →
    (∀ d ∈ digits, d ∈ hexDigits) → IsScalar (valueOf 16 digits) →
    Signed ('\\' :: letter :: '+' :: digits)

theorem NoEscapes.of_suffix {text tail : List Char} (clean : NoEscapes text)
    (suffix : tail <:+ text) : NoEscapes tail := fun more mem =>
  clean more ((List.mem_tails _ _).mpr (((List.mem_tails _ _).mp mem).trans suffix))

theorem NoEscapes.head {text : List Char} (clean : NoEscapes text) : startsEscape text = false :=
  clean text ((List.mem_tails _ _).mpr List.suffix_rfl)

theorem valueOf_of_unsigned? {digits : List Char} {n : Nat} (h : unsigned? 16 digits = some n) :
    (∀ d ∈ digits, d ∈ hexDigits) ∧ n = valueOf 16 digits := by
  have hex : ∀ d ∈ digits, d ∈ hexDigits := fun d mem =>
    mem_hexDigits (digits_of_unsigned? (by simp [h]) d mem)
  rw [unsigned?_digits fun d mem => digitValue?_of_hex (hex d mem)] at h
  exact ⟨hex, (Option.some.inj h).symm⟩

theorem filled_of_signed : ∀ e ∈ hexEscapes, ∀ digits : List Char, e.2 = digits.length + 1 →
    digits ≠ [] := by
  rintro e mem _ width rfl
  revert mem width
  revert e
  decide

section Letter

variable {letter : Char} {digits rest : List Char} {width : Nat}

theorem startsEscape_hex (known : (letter, width) ∈ hexEscapes)
    (complete : (rest.take width).length = width) (hex : ∀ d ∈ rest.take width, d ∈ hexDigits) :
    startsEscape ('\\' :: letter :: rest) = true := by
  simp only [startsEscape, Bool.or_eq_true, List.any_eq_true]
  refine .inr ⟨(letter, width), known, ?_⟩
  simpa [complete] using hex

/-- A sign may stand for the first digit of an escape. -/
theorem escape_signed (known : (letter, digits.length + 1) ∈ hexEscapes)
    (hex : ∀ d ∈ digits, d ∈ hexDigits) (scalar : IsScalar (valueOf 16 digits)) :
    escape letter ('+' :: (digits ++ rest)) =
      ([Char.ofNat (valueOf 16 digits)], digits.length + 1) := by
  have number : number? 16 ('+' :: digits) = some (valueOf 16 digits) := by
    rw [number?_signed (filled_of_signed _ known digits rfl),
      unsigned?_digits fun d mem => digitValue?_of_hex (hex d mem)]
  rw [escape_hexEscape known, List.take_succ_cons, List.take_left, List.length_cons, if_pos rfl,
    numericEscape_of_number? number, characterOr, if_pos scalar]

theorem signed_of_number? {n : Nat} (known : (letter, digits.length) ∈ hexEscapes)
    (number : number? 16 digits = some n) (scalar : IsScalar n)
    (incomplete : ¬ ∀ d ∈ digits, d ∈ hexDigits) : Signed ('\\' :: letter :: digits) := by
  by_cases first : ∃ ds, digits = '+' :: ds
  · obtain ⟨ds, rfl⟩ := first
    rw [number?_signed (filled_of_signed _ known ds rfl)] at number
    obtain ⟨hex, rfl⟩ := valueOf_of_unsigned? number
    exact .mk known hex scalar
  · have filled : digits ≠ [] := List.ne_nil_of_length_pos (hexEscapes_pos _ known)
    rw [number?_unsigned filled fun ds eq => first ⟨ds, eq⟩] at number
    exact absurd (valueOf_of_unsigned? number).1 incomplete

/-- A letter before characters that are not the digits it needs is kept with them, unless they are
digits behind a sign. -/
theorem escape_incomplete (known : (letter, width) ∈ hexEscapes)
    (incomplete : startsEscape ('\\' :: letter :: rest) = false) :
    escape letter rest = ('\\' :: letter :: rest.take width, (rest.take width).length) ∨
      Signed ('\\' :: letter :: rest.take width) := by
  by_cases complete : (rest.take width).length = width
  · cases denotes : (number? 16 (rest.take width)).bind scalar? with
    | none =>
        refine .inl ?_
        rw [escape_hexEscape known, if_pos complete, numericEscape, denotes]
    | some c =>
        obtain ⟨n, number, scalar⟩ := Option.bind_eq_some_iff.mp denotes
        have valid : IsScalar n := by
          by_contra invalid
          rw [scalar?_eq, if_neg invalid] at scalar
          contradiction
        refine .inr (signed_of_number? (complete.symm ▸ known) number valid fun hex => ?_)
        rw [startsEscape_hex known complete hex] at incomplete
        contradiction
  · refine .inl ?_
    rw [escape_hexEscape known, if_neg complete]

end Letter

theorem decodeEscapes_signed {signed : List Char} (plus : Signed signed) (rest : List Char) :
    ∃ c, decodeEscapes (signed ++ rest) = c :: decodeEscapes rest := by
  obtain @⟨letter, digits, known, hex, scalar⟩ := plus
  refine ⟨Char.ofNat (valueOf 16 digits),
    (decodeEscapes_escape letter ('+' :: (digits ++ rest))).trans ?_⟩
  rw [escape_signed known hex scalar, List.drop_succ_cons, List.drop_left]
  rfl

/-- The front of a text without escapes is kept, or there is a sign in it. -/
theorem decodeEscapes_front {c : Char} {rest : List Char} (clean : NoEscapes (c :: rest)) :
    ∃ front more, rest = front ++ more ∧
      (decodeEscapes (c :: rest) = c :: front ++ decodeEscapes more ∧
          (more ≠ [] → ∀ before, Passed before → Passed (c :: front ++ before)) ∨
        Signed (c :: front)) := by
  by_cases plain : c = '\\'
  · subst plain
    cases rest with
    | nil => exact ⟨[], [], rfl, .inl ⟨rfl, fun more => absurd rfl more⟩⟩
    | cons c rest =>
        by_cases other : c ∈ escapeHeads
        · have lettered : c ∈ hexEscapes.map (·.1) := by
            have head := clean.head
            simp only [startsEscape, Bool.or_eq_false_iff, List.contains_eq_mem,
              decide_eq_false_iff_not] at head
            simpa only [escapeHeads, List.mem_append, head.1.1, head.1.2, false_or] using other
          obtain ⟨⟨letter, width⟩, known, rfl⟩ := List.mem_map.mp lettered
          refine ⟨letter :: rest.take width, rest.drop width, ?_, ?_⟩
          · rw [List.cons_append, List.take_append_drop]
          · obtain kept | plus := escape_incomplete known clean.head
            · have taken : rest.drop (rest.take width).length = rest.drop width := by
                rw [List.length_take]
                exact List.drop_eq_drop_iff.mpr (by omega)
              refine .inl ⟨?_, fun more before => .hex ?_⟩
              · rw [decodeEscapes_escape, kept, taken]
              · have long : width ≤ rest.length := Nat.le_of_lt (by simpa using more)
                rwa [List.length_take, Nat.min_eq_left long]
            · exact .inr plus
        · refine ⟨[c], rest, rfl, .inl ⟨?_, fun _ before => .unknown other⟩⟩
          rw [decodeEscapes_escape, escape_unknown other]
          rfl
  · exact ⟨[], rest, rfl, .inl ⟨decodeEscapes_char plain rest, fun _ before => .char plain⟩⟩

theorem Signed.one_lt_length {signed : List Char} (plus : Signed signed) : 1 < signed.length := by
  obtain @⟨letter, digits, -, -, -⟩ := plus
  exact Nat.succ_lt_succ (Nat.succ_pos _)

/-- A text without escapes is decoded to itself, or to a shorter text if one of its letters has
digits behind a sign. -/
theorem decodeEscapes_cases (text : List Char) (clean : NoEscapes text) :
    decodeEscapes text = text ∨ (decodeEscapes text).length < text.length ∧
      ∃ front signed rest, text = front ++ signed ++ rest ∧ Passed front ∧ Signed signed := by
  induction length : text.length using Nat.strong_induction_on generalizing text with
  | _ n ih =>
    subst length
    cases text with
    | nil => exact .inl rfl
    | cons c rest =>
        obtain ⟨front, more, rfl, found⟩ := decodeEscapes_front clean
        have later := ih more.length (by simp only [List.length_cons, List.length_append]; omega)
          more (clean.of_suffix ⟨c :: front, rfl⟩) rfl
        obtain ⟨kept, passes⟩ | plus := found
        · obtain same | ⟨shorter, before, signed, rest, rfl, passed, plus⟩ := later
          · exact .inl (by rw [kept, same, List.cons_append])
          · have more : before ++ signed ++ rest ≠ [] :=
              List.ne_nil_of_length_pos (Nat.zero_lt_of_lt shorter)
            have passed := passes more before passed
            refine .inr ⟨?_, c :: front ++ before, signed, rest, ?_, passed, plus⟩
            · rw [kept, ← List.cons_append, List.length_append, List.length_append]
              exact Nat.add_lt_add_left shorter _
            · simp only [List.cons_append, List.append_assoc]
        · refine .inr ⟨?_, [], c :: front, more, rfl, .nil, plus⟩
          obtain ⟨d, decoded⟩ := decodeEscapes_signed plus more
          have bounded : (decodeEscapes more).length ≤ more.length := by
            obtain same | ⟨shorter, -⟩ := later
            · rw [same]
            · exact shorter.le
          have long := plus.one_lt_length
          rw [← List.cons_append, decoded, List.length_append, List.length_cons]
          omega

/-- A letter that is reached and has digits behind a sign makes the text shorter. What stands before
it may do so as well. -/
theorem length_lt_of_signed {front signed rest : List Char}
    (clean : NoEscapes (front ++ signed ++ rest)) (passed : Passed front) (plus : Signed signed) :
    (decodeEscapes (front ++ signed ++ rest)).length < (front ++ signed ++ rest).length := by
  have bounded : (decodeEscapes rest).length ≤ rest.length := by
    obtain same | ⟨shorter, -⟩ :=
      decodeEscapes_cases rest (clean.of_suffix (List.suffix_append _ rest))
    · rw [same]
    · exact shorter.le
  rw [List.append_assoc] at clean ⊢
  induction passed with
  | nil =>
      obtain ⟨d, decoded⟩ := decodeEscapes_signed plus rest
      have long := plus.one_lt_length
      rw [List.nil_append, decoded, List.length_append, List.length_cons]
      omega
  | @char c front plain _ ih =>
      have later := ih (clean.of_suffix (List.suffix_cons _ _))
      rw [List.cons_append, decodeEscapes_char plain]
      exact Nat.succ_lt_succ later
  | @unknown c front other _ ih =>
      have later := ih (clean.of_suffix ⟨['\\', c], rfl⟩)
      rw [List.cons_append, List.cons_append, decodeEscapes_escape, escape_unknown other]
      exact Nat.succ_lt_succ (Nat.succ_lt_succ later)
  | @hex letter taken front known _ ih =>
      have later := ih (clean.of_suffix ⟨'\\' :: letter :: taken, by simp⟩)
      rw [List.cons_append, List.cons_append, List.append_assoc] at clean ⊢
      obtain kept | sign := escape_incomplete known clean.head
      · rw [decodeEscapes_escape, kept, List.take_left, List.drop_left]
        simp only [List.length_append, List.length_cons] at later ⊢
        omega
      · rw [List.take_left] at sign
        obtain ⟨d, decoded⟩ := decodeEscapes_signed sign (front ++ (signed ++ rest))
        rw [List.cons_append, List.cons_append] at decoded
        rw [decoded]
        simp only [List.length_append, List.length_cons] at later ⊢
        omega

/-- A text without escapes is decoded to itself exactly if no letter that is reached has digits
behind a sign. -/
theorem decodeEscapes_eq_self_iff {text : List Char} (clean : NoEscapes text) :
    decodeEscapes text = text ↔
      ∀ front signed rest, text = front ++ signed ++ rest → Passed front → ¬ Signed signed := by
  constructor
  · rintro same front signed rest rfl passed plus
    have shorter := length_lt_of_signed clean passed plus
    rw [same] at shorter
    exact Nat.lt_irrefl _ shorter
  · intro unsigned
    obtain same | ⟨-, front, signed, rest, cut, passed, plus⟩ := decodeEscapes_cases text clean
    · exact same
    · exact absurd plus (unsigned front signed rest cut passed)

/-- The first letter takes with it a sign and a digit that the second one would read. -/
def coveredSign : List Char := "\\u\\x+4, \\d \\xg+ \\u12".toList

theorem decodeEscapes_coveredSign : NoEscapes coveredSign ∧
    decodeEscapes coveredSign = coveredSign ∧ ∀ front signed rest,
      coveredSign = front ++ signed ++ rest → Passed front → ¬ Signed signed := by
  have clean : NoEscapes coveredSign := by decide
  have same : decodeEscapes coveredSign = coveredSign := by decide
  exact ⟨clean, same, (decodeEscapes_eq_self_iff clean).mp same⟩

/-- A sign and a digit behind a letter are read as a number, although no escape is written so. -/
theorem decodeEscapes_sign : NoEscapes "\\x+4".toList ∧
    decodeEscapes "\\x+4".toList ≠ "\\x+4".toList := by
  decide

end AgentWorkbench.Python
