import AgentWorkbench.Proofs.Text.Encoding
import AgentWorkbench.Proofs.Text.Lossy

/-!
Decoding chunk by chunk. What a text of octets stands for is said by the encodings of the
characters alone: whole encodings stand for their characters, and where none starts, as much as
the encoding of some character starts with stands for one replacement character. However the
octets are cut into chunks, decoding one chunk after the other gives this text.
-/
namespace AgentWorkbench.Text.Utf8

/-- Some octets of an encoding from its start on, possibly none, but not all of them. -/
def Started (part : List UInt8) : Prop :=
  ∃ c, part <+: encodeChar c ∧ part ≠ encodeChar c

/-- The octets at the front of a text that one replacement character stands for: no encoding
starts there, and they are as many as an encoding starts with, or one octet if none does. -/
structure Malformed (part rest : List UInt8) : Prop where
  ne_nil : part ≠ []
  no_character : ∀ c, ¬ encodeChar c <+: part ++ rest
  started : Started part ∨ part.length = 1
  longest : ∀ longer, Started longer → longer <+: part ++ rest → longer.length ≤ part.length

/-- What a text of octets stands for, well formed or not. -/
inductive StandsFor : List UInt8 → List Char → Prop where
  | nil : StandsFor [] []
  | character {rest : List UInt8} {text : List Char} (c : Char) :
    StandsFor rest text → StandsFor (encodeChar c ++ rest) (c :: text)
  | malformed {part rest : List UInt8} {text : List Char} :
    Malformed part rest → StandsFor rest text →
      StandsFor (part ++ rest) (replacement :: text)

/-- A call of a decoder in rounds, with the octets that it holds and those that it is given: as
long as there is a malformed run behind whole characters, and it is not just what the end of the
octets leaves unfinished, the run is replaced and the next round begins behind it. -/
inductive Rounds : Nat → List UInt8 → List Char → List UInt8 → Prop where
  | last {part : List UInt8} (text : List Char) :
    Started part → Rounds 1 (encode text ++ part) text part
  | more {n : Nat} {part rest kept : List UInt8} {later : List Char} (text : List Char) :
    Malformed part rest → ¬ (Started part ∧ rest = []) → Rounds n rest later kept →
      Rounds (n + 1) (encode text ++ (part ++ rest)) (text ++ replacement :: later) kept

/-! The longest run at the front. -/

theorem started_iff {part : List UInt8} (ne : part ≠ []) :
    Started part ↔ IsRun part ∧ part.length < width (part.headD 0) := by
  constructor
  · rintro ⟨c, front, other⟩
    have run := isRun_iff.mpr ⟨ne, c, front⟩
    refine ⟨run, Nat.lt_of_le_of_ne run.length_le fun full => other ?_⟩
    obtain ⟨c', rfl⟩ := isWhole_iff.mp ⟨run, full⟩
    rw [eq_of_encodeChar_isPrefix front]
  · rintro ⟨run, short⟩
    obtain ⟨-, c, front⟩ := isRun_iff.mp run
    refine ⟨c, front, ?_⟩
    rintro rfl
    exact absurd (encodeChar_whole c).1.2 (Nat.ne_of_lt short)

/-- What stands behind a run that could go on no further. -/
structure Munched (part rest : List UInt8) : Prop where
  run : IsRun part
  stop : part.length < width (part.headD 0) → ∀ b ∈ rest.head?, extends? part b = false

theorem munch_append {part : List UInt8} (bs : List UInt8) :
    (munch part bs).1 ++ (munch part bs).2 = part ++ bs := by
  induction bs generalizing part with
  | nil => simp [munch]
  | cons b rest ih =>
    rw [munch]
    split
    · rw [ih, List.append_assoc, List.singleton_append]
    · rfl

theorem munched {part : List UInt8} (run : IsRun part) (bs : List UInt8) :
    Munched (munch part bs).1 (munch part bs).2 := by
  induction bs generalizing part with
  | nil => exact ⟨run, by simp [munch]⟩
  | cons b rest ih =>
    rw [munch]
    split
    · next fits => exact ih ((isRun_concat_iff run.ne_nil).mpr ⟨run, fits⟩)
    · next stop =>
      refine ⟨run, fun short c hc => ?_⟩
      obtain rfl : b = c := by simpa using hc
      exact Bool.eq_false_iff.mpr fun fits => stop ⟨short, fits⟩

/-- No run of the text is longer than the one that could go on no further. -/
theorem Munched.length_le {part rest longer : List UInt8} (h : Munched part rest)
    (run : IsRun longer) (front : longer <+: part ++ rest) : longer.length ≤ part.length := by
  by_contra exceeds
  rw [Nat.not_le] at exceeds
  obtain ⟨more, rfl⟩ : part <+: longer :=
    List.prefix_of_prefix_length_le (List.prefix_append _ _) front (Nat.le_of_lt exceeds)
  rw [List.prefix_append_right_inj] at front
  cases more with
  | nil => simp at exceeds
  | cons b more =>
    obtain ⟨others, rfl⟩ := front
    have next : IsRun (part ++ [b]) := by
      have run' : IsRun ((part ++ [b]) ++ more) := by simpa using run
      exact IsRun.of_append run' (by simp)
    obtain ⟨-, short, fits⟩ := (isRun_concat_iff h.run.ne_nil).mp next
    have stop := h.stop short b rfl
    rw [fits] at stop
    contradiction

/-- Where the longest run is not whole, it is malformed. -/
theorem Munched.malformed {part rest : List UInt8} (h : Munched part rest)
    (short : part.length < width (part.headD 0)) : Malformed part rest where
  ne_nil := h.run.ne_nil
  no_character c front := by
    have whole := (encodeChar_whole c).1
    have le := h.length_le whole.1 front
    obtain ⟨more, rfl⟩ : encodeChar c <+: part :=
      List.prefix_of_prefix_length_le front (List.prefix_append _ _) le
    rw [headD_append (encodeChar_ne_nil c), ← whole.2, List.length_append] at short
    omega
  started := .inl ((started_iff h.run.ne_nil).mpr ⟨h.run, short⟩)
  longest longer started front := by
    by_cases ne : longer = []
    · simp [ne]
    · exact h.length_le ((started_iff ne).mp started).1 front

theorem IsRun.width_ne_zero {part rest : List UInt8} {b : UInt8} (h : IsRun part)
    (front : part <+: b :: rest) : width b ≠ 0 := by
  have long := h.length_le
  have some_octet := List.length_pos_iff.mpr h.ne_nil
  obtain ⟨more, cut⟩ := front
  have head : part.headD 0 = b := by
    rw [← headD_append h.ne_nil more, cut, List.headD_cons]
  rw [head] at long
  omega

/-- An octet with which no encoding starts is malformed alone. -/
theorem malformed_of_width_eq_zero {b : UInt8} (h : width b = 0) (rest : List UInt8) :
    Malformed [b] rest where
  ne_nil := by simp
  no_character c front := (encodeChar_whole c).1.1.width_ne_zero front h
  started := .inr rfl
  longest longer started front := by
    by_cases ne : longer = []
    · simp [ne]
    · exact absurd h (((started_iff ne).mp started).1.width_ne_zero front)

/-! One reading of a text. -/

theorem settle_encodeChar (c : Char) : settle (encodeChar c) = c := by
  rw [settle, if_pos (encodeChar_whole c).1.2, codePoint_encodeChar]

/-- At the front of a text stands a character, or a malformed run. -/
theorem lossy_cases (b : UInt8) (bs : List UInt8) :
    ∃ part rest, part ++ rest = b :: bs ∧ munch [b] bs = (part, rest) ∧
      ((∃ c, part = encodeChar c ∧ settle part = c) ∨
        (Malformed part rest ∧ settle part = replacement)) := by
  by_cases lead : width b = 0
  · have alone : munch [b] bs = ([b], bs) := by cases bs <;> simp [munch, lead]
    exact ⟨[b], bs, rfl, alone, .inr ⟨malformed_of_width_eq_zero lead bs, if_neg (by simp [lead])⟩⟩
  · have run : IsRun [b] := Nat.pos_of_ne_zero lead
    have h := munched run bs
    refine ⟨_, _, munch_append bs, rfl, ?_⟩
    obtain whole | short := Nat.eq_or_lt_of_le h.run.length_le
    · obtain ⟨c, eq⟩ := isWhole_iff.mp ⟨h.run, whole⟩
      exact .inl ⟨c, eq, by rw [eq, settle_encodeChar]⟩
    · exact .inr ⟨h.malformed short, if_neg (Nat.ne_of_lt short)⟩

theorem standsFor_lossy (bs : List UInt8) : StandsFor bs (lossy bs) := by
  induction bs using lossy.induct with
  | case1 =>
    rw [lossy]
    exact .nil
  | case2 b bs ih =>
    rw [lossy]
    obtain ⟨part, rest, cut, munch_eq, ⟨c, rfl, settled⟩ | ⟨malformed, settled⟩⟩ := lossy_cases b bs
    · rw [munch_eq] at ih ⊢
      rw [← cut, settled]
      exact .character c ih
    · rw [munch_eq] at ih ⊢
      rw [← cut, settled]
      exact .malformed malformed ih

theorem Malformed.length_eq {part part' rest rest' : List UInt8} (h : Malformed part rest)
    (h' : Malformed part' rest') (same : part ++ rest = part' ++ rest') :
    part.length = part'.length := by
  have le {p p' r r' : List UInt8} (h : Malformed p r) (h' : Malformed p' r')
      (same : p ++ r = p' ++ r') : p.length ≤ p'.length := by
    obtain started | one := h.started
    · exact h'.longest p started (same ▸ List.prefix_append p r)
    · have := List.length_pos_iff.mpr h'.ne_nil
      omega
  exact Nat.le_antisymm (le h h' same) (le h' h same.symm)

/-- A text of octets stands for one text. -/
theorem StandsFor.unique {bs : List UInt8} {text text' : List Char} (h : StandsFor bs text)
    (h' : StandsFor bs text') : text = text' := by
  induction h generalizing text' with
  | nil =>
    generalize octets : ([] : List UInt8) = bs at h'
    cases h' with
    | nil => rfl
    | character c _ => simp [encodeChar_ne_nil] at octets
    | malformed malformed _ => simp [malformed.ne_nil] at octets
  | @character rest text c _ ih =>
    generalize octets : encodeChar c ++ rest = bs at h'
    cases h' with
    | nil => simp [encodeChar_ne_nil] at octets
    | @character rest' text' c' later =>
      have here : encodeChar c <+: encodeChar c ++ rest := List.prefix_append _ _
      have there : encodeChar c' <+: encodeChar c ++ rest :=
        octets ▸ List.prefix_append (encodeChar c') rest'
      obtain front | front := List.prefix_or_prefix_of_prefix here there
      all_goals
        obtain rfl := eq_of_encodeChar_isPrefix front
        rw [ih (List.append_cancel_left octets ▸ later)]
    | malformed malformed _ =>
      exact absurd (octets ▸ List.prefix_append _ _) (malformed.no_character c)
  | @malformed part rest text malformed _ ih =>
    generalize octets : part ++ rest = bs at h'
    cases h' with
    | nil => simp [malformed.ne_nil] at octets
    | character c _ => exact absurd (octets ▸ List.prefix_append _ _) (malformed.no_character c)
    | @malformed part' rest' text' malformed' later =>
      obtain ⟨rfl, rfl⟩ := List.append_inj octets (malformed.length_eq malformed' octets)
      rw [ih later]

theorem standsFor_iff {bs : List UInt8} {text : List Char} :
    StandsFor bs text ↔ text = lossy bs :=
  ⟨fun h => h.unique (standsFor_lossy bs), fun h => h ▸ standsFor_lossy bs⟩

theorem standsFor_encode (text : List Char) : StandsFor (encode text) text := by
  induction text with
  | nil => exact .nil
  | cons c rest ih => exact .character c ih

/-! Calls of a decoder. -/

namespace Decoder

/-- Settles the longest run at the front, if the text goes on behind it or it is whole, and then
decodes what is left. -/
def carry (part rest : List UInt8) : List Char × Decoder :=
  if rest = [] ∧ part.length < width (part.headD 0) then ([], ⟨part⟩)
  else (settle part :: (decode {} rest).1, (decode {} rest).2)

theorem decode_step (d : Decoder) (b : UInt8) (bs : List UInt8) :
    d.decode (b :: bs) =
      ((d.feed b).1 ++ ((d.feed b).2.decode bs).1, ((d.feed b).2.decode bs).2) := rfl

theorem decode_unfinished {part : List UInt8} (h : Unfinished part) (bs : List UInt8) :
    decode ⟨part⟩ bs = carry (munch part bs).1 (munch part bs).2 := by
  induction bs generalizing part with
  | nil => exact (if_pos ⟨rfl, h.short⟩).symm
  | cons b rest ih =>
    rw [decode_step, feed_unfinished h, munch]
    by_cases fits : extends? part b = true
    · have extended : part.length < width (part.headD 0) ∧ extends? part b = true :=
        ⟨h.short, fits⟩
      rw [if_pos fits, if_pos extended]
      split
      · next full =>
        have whole : (part ++ [b]).length = width ((part ++ [b]).headD 0) := by
          rw [headD_append h.started, ← full, List.length_append, List.length_singleton]
        have goes_on : ¬ (rest = [] ∧ (part ++ [b]).length < width ((part ++ [b]).headD 0)) :=
          fun last => Nat.ne_of_lt last.2 whole
        rw [munch_whole whole, carry, if_neg goes_on, settle, if_pos whole]
        rfl
      · next short =>
        have longer : Unfinished (part ++ [b]) := by
          refine ⟨by simp, ?_⟩
          have := h.short
          rw [headD_append h.started, List.length_append, List.length_singleton]
          omega
        exact ih longer
    · rw [if_neg fits, if_neg fun both => fits both.2, carry, if_neg (by simp), h.settle,
        decode_step]
      rfl

theorem decode_cons (b : UInt8) (bs : List UInt8) :
    decode {} (b :: bs) = carry (munch [b] bs).1 (munch [b] bs).2 := by
  rcases h : width b with _ | _ | n
  · have alone : munch [b] bs = ([b], bs) := by cases bs <;> simp [munch, h]
    rw [alone, carry, if_neg (by simp [h]), settle, if_neg (by simp [h])]
    simp [decode, feed, start, h]
  · have alone : munch [b] bs = ([b], bs) := munch_whole (by simp [h]) bs
    rw [alone, carry, if_neg (by simp [h]), settle, if_pos (by simp [h])]
    simp [decode, feed, start, h, codePoint_one]
  · have unfinished : Unfinished [b] := ⟨by simp, by simp [h]⟩
    rw [← decode_unfinished unfinished]
    simp [decode, feed, start, h]

/-- A call of a fresh decoder goes on behind a character or a malformed run, or ends. -/
theorem decode_cases (b : UInt8) (bs : List UInt8) :
    ∃ part rest, part ++ rest = b :: bs ∧
      ((∃ c, part = encodeChar c ∧
          decode {} (b :: bs) = (c :: (decode {} rest).1, (decode {} rest).2)) ∨
        (Started part ∧ rest = [] ∧ decode {} (b :: bs) = ([], ⟨part⟩)) ∨
        (Malformed part rest ∧ ¬ (Started part ∧ rest = []) ∧
          decode {} (b :: bs) = (replacement :: (decode {} rest).1, (decode {} rest).2))) := by
  obtain ⟨part, rest, cut, munch_eq, front⟩ := lossy_cases b bs
  refine ⟨part, rest, cut, ?_⟩
  rw [decode_cons, munch_eq, carry]
  obtain ⟨c, rfl, settled⟩ | ⟨malformed, settled⟩ := front
  · rw [if_neg fun last => Nat.ne_of_lt last.2 (encodeChar_whole c).1.2, settled]
    exact .inl ⟨c, rfl, rfl⟩
  · by_cases last : Started part ∧ rest = []
    · have short := ((started_iff malformed.ne_nil).mp last.1).2
      rw [if_pos ⟨last.2, short⟩]
      exact .inr (.inl ⟨last.1, last.2, rfl⟩)
    · have goes_on : ¬ (rest = [] ∧ part.length < width (part.headD 0)) := by
        rintro ⟨none_left, short⟩
        obtain started | one := malformed.started
        · exact last ⟨started, none_left⟩
        · obtain ⟨a, rfl⟩ := List.length_eq_one_iff.mp one
          have run : IsRun [a] := Nat.le_of_lt short
          exact last ⟨(started_iff malformed.ne_nil).mpr ⟨run, short⟩, none_left⟩
      rw [if_neg goes_on, settled]
      exact .inr (.inr ⟨malformed, last, rfl⟩)

end Decoder

theorem started_nil : Started [] :=
  ⟨'a', List.nil_prefix, (encodeChar_ne_nil 'a').symm⟩

theorem Rounds.character {n : Nat} {bs kept : List UInt8} {text : List Char}
    (h : Rounds n bs text kept) (c : Char) : Rounds n (encodeChar c ++ bs) (c :: text) kept := by
  cases h with
  | last text started =>
    rw [← List.append_assoc]
    exact .last (c :: text) started
  | more text malformed goes_on later =>
    rw [← List.append_assoc]
    exact .more (c :: text) malformed goes_on later

theorem length_encodeChar_pos (c : Char) : 0 < (encodeChar c).length :=
  List.length_pos_iff.mpr (encodeChar_ne_nil c)

/-- A call ends, after no more rounds than it has octets and one. -/
theorem rounds_decode (bs : List UInt8) :
    ∃ n ≤ bs.length + 1,
      Rounds n bs (Decoder.decode {} bs).1 (Decoder.decode {} bs).2.pending := by
  generalize size : bs.length = k
  induction k using Nat.strongRecOn generalizing bs with
  | ind k ih =>
    cases bs with
    | nil => exact ⟨1, by omega, .last [] started_nil⟩
    | cons b bs =>
      obtain ⟨part, rest, cut, ⟨c, rfl, decoded⟩ | ⟨started, rfl, decoded⟩ |
        ⟨malformed, goes_on, decoded⟩⟩ := Decoder.decode_cases b bs
      · rw [← cut, List.length_append] at size
        have shorter := length_encodeChar_pos c
        obtain ⟨n, le, rounds⟩ := ih rest.length (by omega) rest rfl
        rw [decoded, ← cut]
        exact ⟨n, by omega, rounds.character c⟩
      · rw [decoded, ← cut, List.append_nil]
        exact ⟨1, by omega, .last [] started⟩
      · rw [← cut, List.length_append] at size
        have shorter := List.length_pos_iff.mpr malformed.ne_nil
        obtain ⟨n, le, rounds⟩ := ih rest.length (by omega) rest rfl
        rw [decoded, ← cut]
        exact ⟨n + 1, by omega, .more [] malformed goes_on rounds⟩

theorem Started.no_character {part : List UInt8} (h : Started part) (c : Char) :
    ¬ encodeChar c <+: part := by
  obtain ⟨c', front, other⟩ := h
  intro within
  obtain rfl := eq_of_encodeChar_isPrefix (within.trans front)
  exact other (front.eq_of_length_le within.length_le)

namespace Decoder

theorem decode_character (c : Char) (rest : List UInt8) :
    decode {} (encodeChar c ++ rest) = (c :: (decode {} rest).1, (decode {} rest).2) := by
  obtain ⟨b, bs, octets⟩ : ∃ b bs, encodeChar c ++ rest = b :: bs :=
    List.exists_cons_of_ne_nil (by simp [encodeChar_ne_nil])
  have front := octets ▸ List.prefix_append (encodeChar c) rest
  obtain ⟨part, left, cut, ⟨c', rfl, decoded⟩ | ⟨started, rfl, -⟩ | ⟨malformed, -, -⟩⟩ :=
    decode_cases b bs
  · have same : c = c' := by
      obtain short | short := List.prefix_or_prefix_of_prefix front (cut ▸ List.prefix_append _ _)
      · exact eq_of_encodeChar_isPrefix short
      · exact (eq_of_encodeChar_isPrefix short).symm
    subst same
    obtain rfl := List.append_cancel_left (octets.trans cut.symm)
    rw [octets, decoded]
  · rw [List.append_nil] at cut
    exact absurd (cut ▸ front) (started.no_character c)
  · exact absurd (cut ▸ front) (malformed.no_character c)

theorem decode_malformed {part rest : List UInt8} (h : Malformed part rest)
    (goes_on : ¬ (Started part ∧ rest = [])) :
    decode {} (part ++ rest) = (replacement :: (decode {} rest).1, (decode {} rest).2) := by
  obtain ⟨b, bs, octets⟩ : ∃ b bs, part ++ rest = b :: bs :=
    List.exists_cons_of_ne_nil (by simp [h.ne_nil])
  obtain ⟨front, left, cut, ⟨c, rfl, -⟩ | ⟨started, rfl, -⟩ | ⟨malformed, -, decoded⟩⟩ :=
    decode_cases b bs
  · exact absurd (octets ▸ cut ▸ List.prefix_append _ _) (h.no_character c)
  · -- the whole text is the start of an encoding, so the malformed run is all of it
    rw [List.append_nil] at cut
    have whole : front = part ++ rest := cut.trans octets.symm
    have le := h.longest front started (whole ▸ List.prefix_rfl)
    rw [whole, List.length_append] at le
    have none_left : rest = [] := List.eq_nil_of_length_eq_zero (by omega)
    rw [none_left, List.append_nil] at whole
    exact absurd ⟨whole ▸ started, none_left⟩ goes_on
  · have same := octets.trans cut.symm
    obtain ⟨rfl, rfl⟩ := List.append_inj same (h.length_eq malformed same)
    rw [octets, decoded]

theorem decode_started {part : List UInt8} (h : Started part) :
    decode {} part = ([], ⟨part⟩) := by
  by_cases empty : part = []
  · rw [empty]
    rfl
  · obtain ⟨b, bs, rfl⟩ := List.exists_cons_of_ne_nil empty
    obtain ⟨front, left, cut, ⟨c, rfl, -⟩ | ⟨-, rfl, decoded⟩ | ⟨malformed, goes_on, -⟩⟩ :=
      decode_cases b bs
    · exact absurd (cut ▸ List.prefix_append _ _) (h.no_character c)
    · rw [List.append_nil] at cut
      rw [decoded, cut]
    · have le := malformed.longest _ h (cut ▸ List.prefix_rfl)
      rw [← cut, List.length_append] at le
      have none_left : left = [] := List.eq_nil_of_length_eq_zero (by omega)
      rw [none_left, List.append_nil] at cut
      exact absurd ⟨cut ▸ h, none_left⟩ goes_on

theorem decode_encode (text : List Char) (rest : List UInt8) :
    decode {} (encode text ++ rest) = (text ++ (decode {} rest).1, (decode {} rest).2) := by
  induction text with
  | nil => rfl
  | cons c text ih =>
    have split : encode (c :: text) ++ rest = encodeChar c ++ (encode text ++ rest) := by
      simp [encode]
    rw [split, decode_character, ih]
    rfl

/-- A decoder that holds the start of an encoding goes on as one that reads it first. -/
theorem decode_append_started {part : List UInt8} (h : Started part) (chunk : List UInt8) :
    decode {} (part ++ chunk) = decode ⟨part⟩ chunk := by
  rw [decode_append, decode_started h]
  rfl

end Decoder

/-- Nothing but the result of a call comes out of its rounds. -/
theorem Rounds.decode_eq {n : Nat} {bs kept : List UInt8} {text : List Char}
    (h : Rounds n bs text kept) : Decoder.decode {} bs = (text, ⟨kept⟩) := by
  induction h with
  | last text started =>
    rw [Decoder.decode_encode, Decoder.decode_started started, List.append_nil]
  | more text malformed goes_on _ ih =>
    rw [Decoder.decode_encode, Decoder.decode_malformed malformed goes_on, ih]

theorem Rounds.started {n : Nat} {bs kept : List UInt8} {text : List Char}
    (h : Rounds n bs text kept) : Started kept := by
  induction h with
  | last _ started => exact started
  | more _ _ _ _ ih => exact ih

theorem Started.length_le {part : List UInt8} (h : Started part) : part.length ≤ 3 := by
  by_cases empty : part = []
  · simp [empty]
  · have short := ((started_iff empty).mp h).2
    have := width_le (part.headD 0)
    omega

/-- What is started is started of a character with several octets. -/
theorem Started.exists_multiple {part : List UInt8} (h : Started part) :
    ∃ c, 1 < (encodeChar c).length ∧ part <+: encodeChar c ∧ part ≠ encodeChar c := by
  by_cases empty : part = []
  · exact ⟨'é', by decide, empty ▸ List.nil_prefix, empty ▸ (encodeChar_ne_nil 'é').symm⟩
  · obtain ⟨c, front, other⟩ := h
    have some_octet := List.length_pos_iff.mpr empty
    have less : part.length < (encodeChar c).length :=
      Nat.lt_of_le_of_ne front.length_le fun same => other (front.eq_of_length same)
    exact ⟨c, by omega, front, other⟩

namespace Decoder

/-- Decodes one chunk after the other. -/
def decodeEach (d : Decoder) : List (List UInt8) → List Char × Decoder
  | [] => ([], d)
  | chunk :: more =>
    ((d.decode chunk).1 ++ ((d.decode chunk).2.decodeEach more).1,
      ((d.decode chunk).2.decodeEach more).2)

theorem decodeEach_eq_decode (d : Decoder) (chunks : List (List UInt8)) :
    d.decodeEach chunks = d.decode chunks.flatten := by
  induction chunks generalizing d with
  | nil => rfl
  | cons chunk more ih => rw [decodeEach, ih, List.flatten_cons, decode_append]

/-- What a decoder has made of these octets. Text and end together are the text that the octets
stand for, which is the encoded one if they encode one; what is pending is the start of an encoding
of several octets; and a further call ends after finitely many rounds, with what comes out of
them. -/
structure Decoded (octets : List UInt8) (out : List Char) (d : Decoder) : Prop where
  reading : ∀ text, StandsFor octets text ↔ text = out ++ d.finish
  encoded : ∀ text, octets = encode text → out ++ d.finish = text
  pending : d.pending.length ≤ 3 ∧
    ∃ c, 1 < (encodeChar c).length ∧ d.pending <+: encodeChar c ∧ d.pending ≠ encodeChar c
  ends : ∀ chunk, ∃ n ≤ d.pending.length + chunk.length + 1, ∃ out kept,
    Rounds n (d.pending ++ chunk) out kept
  rounds : ∀ chunk n out kept, Rounds n (d.pending ++ chunk) out kept →
    d.decode chunk = (out, ⟨kept⟩)

/-- However a text is cut into chunks, they are decoded as the whole text is. -/
theorem chunks_decode_as_whole (chunks : List (List UInt8)) :
    Decoded chunks.flatten (decodeEach {} chunks).1 (decodeEach {} chunks).2 := by
  have flat : decodeEach {} chunks = decode {} chunks.flatten := decodeEach_eq_decode {} chunks
  have whole : (decodeEach {} chunks).1 ++ (decodeEach {} chunks).2.finish =
      lossy chunks.flatten := by
    rw [← decodeLossy_eq_lossy, decodeLossy, flat]
  obtain ⟨_, -, rounds⟩ := rounds_decode chunks.flatten
  rw [← flat] at rounds
  have started : Started (decodeEach {} chunks).2.pending := rounds.started
  exact {
    reading := fun text => by rw [standsFor_iff, whole]
    encoded := fun text same => by
      rw [whole, same]
      exact (standsFor_iff.mp (standsFor_encode text)).symm
    pending := ⟨started.length_le, started.exists_multiple⟩
    ends := fun chunk => by
      obtain ⟨n, le, made⟩ := rounds_decode ((decodeEach {} chunks).2.pending ++ chunk)
      rw [List.length_append] at le
      exact ⟨n, le, _, _, made⟩
    rounds := fun chunk n out kept made => by
      rw [← decode_append_started started]
      exact made.decode_eq }

end Decoder

end AgentWorkbench.Text.Utf8
