import AgentWorkbench.Json.Printer
import AgentWorkbench.Json.Reader
import Mathlib.Data.List.TakeWhile

/-!
Strings and numbers of a JSON text. A quoted string reads back as the string, whatever characters
it has. The reader of numbers looks one character past the number: it takes the same number when
the text goes on with a delimiter.
-/
namespace AgentWorkbench.JsonReader

open Json

theorem hexFour?_control : ∀ n < 0x20,
    hexFour? '0' '0' (hexDigit (n / 16)) (hexDigit (n % 16)) = some n := by
  decide

theorem not_surrogate {n : Nat} (h : n < 0x20) :
    isHighSurrogate n = false ∧ isLowSurrogate n = false := by
  constructor <;> simp [isHighSurrogate, isLowSurrogate] <;> omega

theorem stringRest_escapeChar (c : Char) (rest : List Char) :
    stringRest none (escapeChar c ++ rest) =
      (stringRest none rest).map fun (cs, left) => (c :: cs, left) := by
  have letter (n : Nat) (h : c.toNat = n) : c = Char.ofNat n := by rw [← h, Char.ofNat_toNat]
  have whole (x : Except JsonError (List Char × List Char)) (d : Char) :
      (do let (cs, left) ← x; return (d :: cs, left) : Except JsonError _) =
        x.map fun (cs, left) => (d :: cs, left) := by
    cases x <;> rfl
  unfold escapeChar
  split
  · subst c; simp [stringRest, simpleEscape?, whole]
  split
  · subst c; simp [stringRest, simpleEscape?, whole]
  split
  · subst c; simp [stringRest, simpleEscape?, whole]
  split
  · subst c; simp [stringRest, simpleEscape?, whole]
  split
  · subst c; simp [stringRest, simpleEscape?, whole]
  split
  · next h => rw [letter 8 h]; simp [stringRest, simpleEscape?, whole]
  split
  · next h => rw [letter 12 h]; simp [stringRest, simpleEscape?, whole]
  split
  · next h =>
      simp [stringRest, hexFour?_control _ h, not_surrogate h, Char.ofNat_toNat, whole]
  · next _ backslash _ _ _ _ _ control =>
      simp [stringRest, backslash, control, whole]

theorem stringRest_quoted (cs rest : List Char) :
    stringRest none (cs.flatMap escapeChar ++ '"' :: rest) = .ok (cs, rest) := by
  induction cs with
  | nil => simp [stringRest]
  | cons c cs ih =>
      rw [List.flatMap_cons, List.append_assoc, stringRest_escapeChar, ih]
      rfl

/-- What may follow a value: nothing, a gap, a comma or a closing bracket. -/
def Delimited (rest : List Char) : Prop :=
  ∀ c ∈ rest.head?, isGap c = true ∨ c = ',' ∨ c = ']' ∨ c = '\x7d'

theorem Delimited.not_number {c : Char} {rest : List Char} (h : Delimited (c :: rest)) :
    c.isDigit = false ∧ c ≠ '.' ∧ c ≠ 'e' ∧ c ≠ 'E' ∧ c ≠ '-' ∧ c ≠ '+' := by
  have := h c rfl
  simp only [isGap, Bool.or_eq_true, decide_eq_true_eq] at this
  obtain (((rfl | rfl) | rfl) | rfl) | rfl | rfl | rfl := this <;> decide

/-- What the reader takes stands on one line, and a delimiter after it changes nothing. -/
def Bounded {α : Type} (r : JsonReader α) : Prop :=
  ∀ cs a left, r cs = .ok (a, left) →
    (∃ used, cs = used ++ left ∧ '\n' ∉ used) ∧
      ∀ rest, Delimited rest → r (cs ++ rest) = .ok (a, left ++ rest)

namespace Bounded

variable {α β : Type}

theorem pure (a : α) : Bounded fun cs => .ok (a, cs) := by
  rintro cs a left ⟨⟩
  exact ⟨⟨[], rfl, by simp⟩, fun rest _ => rfl⟩

theorem error (e : JsonError) : Bounded (α := α) fun _ => .error e := by
  intro cs a left h
  cases h

theorem bind {r : JsonReader α} {f : α → JsonReader β} (hr : Bounded r)
    (hf : ∀ a, Bounded (f a)) : Bounded fun cs => r cs >>= fun (a, left) => f a left := by
  intro cs b last h
  dsimp only at h ⊢
  cases read : r cs with
  | error e => rw [read] at h; cases h
  | ok p =>
      obtain ⟨a, left⟩ := p
      rw [read] at h
      obtain ⟨⟨used, rfl, clean⟩, more⟩ := hr cs a left read
      obtain ⟨⟨used', rfl, clean'⟩, more'⟩ := hf a left b last h
      refine ⟨⟨used ++ used', by simp, by simp [clean, clean']⟩, fun rest delimited => ?_⟩
      rw [more rest delimited]
      exact more' rest delimited

/-- A reader that takes the first character if it is one that no delimiter is. -/
theorem takeHead {p : Char → Prop} [DecidablePred p] {yes no : JsonReader α}
    (line : ¬ p '\n') (apart : ∀ c rest, Delimited (c :: rest) → ¬ p c) (hyes : Bounded yes)
    (hno : Bounded no) : Bounded fun cs =>
      match cs with
      | c :: rest => if p c then yes rest else no cs
      | [] => no cs := by
  intro cs a left h
  cases cs with
  | nil =>
      obtain ⟨used, more⟩ := hno _ _ _ h
      refine ⟨used, fun rest delimited => ?_⟩
      have := more rest delimited
      cases rest with
      | nil => exact this
      | cons c rest => simpa [apart c rest delimited] using this
  | cons c cs =>
      dsimp only at h
      split at h
      · next head =>
          obtain ⟨⟨used, rfl, clean⟩, more⟩ := hyes _ _ _ h
          have ne : '\n' ≠ c := fun same => line (same ▸ head)
          refine ⟨⟨c :: used, by simp, by simp [clean, ne]⟩, fun rest delimited => ?_⟩
          simpa [head] using more rest delimited
      · next head =>
          obtain ⟨used, more⟩ := hno _ _ _ h
          refine ⟨used, fun rest delimited => ?_⟩
          simpa [head] using more rest delimited

theorem digits : Bounded digits := by
  intro cs ds left h
  have split := List.takeWhile_append_dropWhile (p := Char.isDigit) (l := cs)
  have all : ∀ c ∈ cs.takeWhile Char.isDigit, c.isDigit = true :=
    fun c hc => List.mem_takeWhile_imp hc
  rw [JsonReader.digits] at h
  split at h
  · cases h
  next ne =>
    cases h
    have clean : '\n' ∉ cs.takeWhile Char.isDigit := fun h => absurd (all _ h) (by decide)
    refine ⟨⟨_, split.symm, clean⟩, fun rest delimited => ?_⟩
    have stop : rest.takeWhile Char.isDigit = [] ∧ rest.dropWhile Char.isDigit = rest := by
      cases rest with
      | nil => simp
      | cons c rest => simp [delimited.not_number.1]
    have same : (cs ++ rest).takeWhile Char.isDigit = cs.takeWhile Char.isDigit ∧
        (cs ++ rest).dropWhile Char.isDigit = cs.dropWhile Char.isDigit ++ rest := by
      rw [List.takeWhile_append, List.dropWhile_append, stop.1, stop.2]
      constructor
      · split
        · next h => rw [List.append_nil, List.Sublist.eq_of_length (List.takeWhile_sublist _) h]
        · rfl
      · split
        · next h => rw [List.isEmpty_iff.mp h, List.nil_append]
        · rfl
    rw [JsonReader.digits, same.1, same.2]
    split
    · contradiction
    · rfl

theorem minus : Bounded minus := by
  have := takeHead (p := (· = '-')) (by decide) (fun c rest h => h.not_number.2.2.2.2.1)
    (pure true) (pure false)
  convert this using 2 with cs
  cases cs with
  | nil => rfl
  | cons c cs => by_cases h : c = '-' <;> simp [JsonReader.minus, h]

theorem exponentSign : Bounded exponentSign := by
  have := takeHead (p := (· = '+')) (by decide) (fun c rest h => h.not_number.2.2.2.2.2)
    (pure false) minus
  convert this using 2 with cs
  cases cs with
  | nil => rfl
  | cons c cs => by_cases h : c = '+' <;> simp [JsonReader.exponentSign, h]

theorem fractionPart : Bounded fractionPart := by
  have := takeHead (p := (· = '.')) (by decide) (fun c rest h => h.not_number.2.1)
    (digits.bind fun ds => pure (some ds)) (pure none)
  convert this using 2 with cs
  cases cs with
  | nil => rfl
  | cons c cs =>
      by_cases h : c = '.'
      · subst h
        rfl
      · simp [JsonReader.fractionPart, h]

theorem exponentPart : Bounded exponentPart :=
  takeHead (p := fun c => c = 'e' ∨ c = 'E') (by decide)
    (fun c rest h => not_or.mpr ⟨h.not_number.2.2.1, h.not_number.2.2.2.1⟩)
    (exponentSign.bind fun negative => digits.bind fun ds => pure (some (negative, ds)))
    (pure none)

/-- The parts of a number after its whole part. -/
theorem afterWhole (negative : Bool) (whole : List Char) : Bounded fun cs => do
    if whole.length ≠ 1 ∧ whole.head? = some '0' then throw .malformed
    let (fraction, cs) ← JsonReader.fractionPart cs
    let (exponent, cs) ← JsonReader.exponentPart cs
    return ((⟨negative, whole, fraction, exponent⟩ : NumberText), cs) := by
  by_cases h : whole.length ≠ 1 ∧ whole.head? = some '0'
  · simp only [if_pos h]
    exact error .malformed
  · simp only [if_neg h]
    exact fractionPart.bind fun fraction => exponentPart.bind fun exponent =>
      pure (NumberText.mk negative whole fraction exponent)

theorem numberText : Bounded numberText :=
  minus.bind fun negative => digits.bind fun whole => afterWhole negative whole

theorem number : Bounded number := by
  have value (text : NumberText) : Bounded fun cs =>
      text.value?.elim (throw .malformed) fun n => return (n, cs) := by
    cases text.value? with
    | none => exact error .malformed
    | some n => exact pure n
  refine cast (congrArg Bounded (funext fun cs => ?_)) (numberText.bind value)
  rw [JsonReader.number]
  congr 1
  funext x
  obtain ⟨text, left⟩ := x
  dsimp only
  cases text.value? <;> rfl

end Bounded

theorem exists_digit_of_digits {cs ds left : List Char} (h : digits cs = .ok (ds, left)) :
    ∃ digit tail, cs = digit :: tail ∧ digit.isDigit = true := by
  cases cs with
  | nil => simp [digits] at h
  | cons c tail =>
      by_cases hc : c.isDigit
      · exact ⟨c, tail, rfl, hc⟩
      · simp [digits, hc] at h

/-- A number begins with a digit or with a minus and a digit. -/
theorem exists_digit_of_number {cs left : List Char} {n : JsonNumber}
    (h : number cs = .ok (n, left)) :
    ∃ sign digit tail, cs = sign ++ digit :: tail ∧ (sign = [] ∨ sign = ['-']) ∧
      digit.isDigit = true := by
  cases signed : minus cs with
  | error e => simp [number, numberText, signed, bind, Except.bind] at h
  | ok p =>
      obtain ⟨negative, rest⟩ := p
      cases whole : digits rest with
      | error e => simp [number, numberText, signed, whole, bind, Except.bind] at h
      | ok q =>
          obtain ⟨digit, tail, rfl, hd⟩ := exists_digit_of_digits whole
          unfold minus at signed
          split at signed
          · cases signed
            exact ⟨['-'], digit, tail, rfl, .inr rfl, hd⟩
          · cases signed
            exact ⟨[], digit, tail, rfl, .inl rfl, hd⟩

end AgentWorkbench.JsonReader
