import AgentWorkbench.Python.Lexer

/-!
Texts as string literals between double quotes. A backslash, a double quote, a line break and the
zero character are written as escapes, every other character as itself; the lexer takes such a
literal as a whole, and decoding its escapes gives the text back.
-/
namespace AgentWorkbench.Python

/-- The characters that are written as escapes. -/
def escapees : List Char := ['\\', '"', '\n', '\r', '\x00']

def escapeChar (c : Char) : List Char :=
  if c = '\n' then ['\\', 'n']
  else if c = '\r' then ['\\', 'r']
  else if c = '\x00' then ['\\', 'x', '0', '0']
  else if escapees.contains c then ['\\', c]
  else [c]

def escaped (text : List Char) : List Char := text.flatMap escapeChar

/-- The literal of a text. -/
def quoted (text : String) : List Char := '"' :: (escaped text.toList ++ ['"'])

theorem escapeChar_plain {c : Char} (h : c ∉ escapees) : escapeChar c = [c] := by
  have : c ≠ '\n' ∧ c ≠ '\r' ∧ c ≠ '\x00' := by
    refine ⟨?_, ?_, ?_⟩ <;> rintro rfl <;> exact h (by decide)
  simp [escapeChar, this, h]

theorem decodeFrom_escapeChar (c : Char) (rest : List Char) :
    decodeFrom 0 (escapeChar c ++ rest) = c :: decodeFrom 0 rest := by
  by_cases h : c ∈ escapees
  · simp only [escapees, List.mem_cons, List.not_mem_nil, or_false] at h
    obtain rfl | rfl | rfl | rfl | rfl := h <;> rfl
  · have plain : c ≠ '\\' := by
      rintro rfl
      exact h (by decide)
    rw [escapeChar_plain h, List.singleton_append]
    simp [decodeFrom, plain]

theorem decodeEscapes_escaped (text : List Char) : decodeEscapes (escaped text) = text := by
  rw [decodeEscapes]
  induction text with
  | nil => rfl
  | cons c rest ih => rw [escaped, List.flatMap_cons, decodeFrom_escapeChar, ← escaped, ih]

theorem head?_escapeChar (c : Char) : ∃ d rest, escapeChar c = d :: rest ∧ d ≠ '"' := by
  by_cases h : c ∈ escapees
  · simp only [escapees, List.mem_cons, List.not_mem_nil, or_false] at h
    obtain rfl | rfl | rfl | rfl | rfl := h <;> exact ⟨'\\', _, rfl, by decide⟩
  · refine ⟨c, [], escapeChar_plain h, ?_⟩
    rintro rfl
    exact h (by decide)

namespace Lexer

theorem stringContent?_escapeChar (c : Char) (rest : List Char) :
    stringContent? ['"'] (escapeChar c ++ rest) =
      stringContent?.extend (escapeChar c) (stringContent? ['"'] rest) := by
  by_cases h : c ∈ escapees
  · simp only [escapees, List.mem_cons, List.not_mem_nil, or_false] at h
    obtain rfl | rfl | rfl | rfl | rfl := h <;>
      simp [escapeChar, escapees, stringContent?, stringContent?.extend, Function.comp_def]
  · obtain ⟨plain, no_quote, no_break, no_zero⟩ : c ≠ '\\' ∧ c ≠ '"' ∧ c ≠ '\n' ∧ c ≠ '\x00' := by
      refine ⟨?_, ?_, ?_, ?_⟩ <;> rintro rfl <;> exact h (by decide)
    have not_zero : c.toNat ≠ 0 := fun zero => no_zero (Char.toNat_inj.mp zero)
    have no_end : ['"'].isPrefixOf (c :: rest) = false := by
      simp [List.isPrefixOf, Ne.symm no_quote]
    rw [escapeChar_plain h, List.singleton_append, stringContent?, no_end]
    · simp [not_zero, no_break]
    · exact fun _ here => absurd here plain
    · exact fun _ _ here => absurd here plain

theorem stringContent?_escaped (text rest : List Char) :
    stringContent? ['"'] (escaped text ++ '"' :: rest) = some (escaped text, rest) := by
  induction text with
  | nil => rfl
  | cons c more ih =>
      rw [escaped, List.flatMap_cons, ← escaped, List.append_assoc, stringContent?_escapeChar, ih]
      rfl

/-- A text that starts with no double quote. -/
def Unquoted (cs : List Char) : Prop := ∀ c ∈ cs.head?, c ≠ '"'

theorem unquoted_cons {c : Char} (h : c ≠ '"') (rest : List Char) : Unquoted (c :: rest) := by
  rintro _ ⟨⟩
  exact h

theorem Unquoted.append {cs : List Char} (h : Unquoted cs) (some_char : cs ≠ [])
    (rest : List Char) : Unquoted (cs ++ rest) := by
  cases cs with
  | nil => exact absurd rfl some_char
  | cons c cs => exact h

theorem Unquoted.flatMap {α : Type} {f : α → List Char} (h : ∀ a, Unquoted (f a))
    (as : List α) : Unquoted (as.flatMap f) := by
  intro c head
  rw [List.head?_flatMap] at head
  obtain ⟨a, -, head⟩ := List.exists_of_findSome?_eq_some head
  exact h a c head

theorem unquoted_escaped (cs : List Char) : Unquoted (escaped cs) := by
  refine .flatMap (fun c d head => ?_) cs
  obtain ⟨e, rest, same, unquoted⟩ := head?_escapeChar c
  rw [same] at head
  cases head
  exact unquoted

/-- A quote is a single one where no other quote follows, and none behind the closing one of an
empty literal. -/
theorem quote?_single {content rest : List Char} (h : Unquoted content)
    (apart : content = [] → Unquoted rest) :
    quote? ('"' :: (content ++ '"' :: rest)) = some (['"'], content ++ '"' :: rest) := by
  cases content with
  | nil =>
      cases rest with
      | nil => rfl
      | cons c rest =>
          have behind : c ≠ '"' := apart rfl c rfl
          simp [quote?, StringPrefix.isQuote, behind]
  | cons d content =>
      have first : d ≠ '"' := h d rfl
      cases content <;> simp [quote?, StringPrefix.isQuote, first]

end Lexer

end AgentWorkbench.Python
