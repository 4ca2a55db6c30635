import AgentWorkbench.Text.Utf8

/-!
Decoding a whole text at once. From the front, the longest run of octets is taken with which a
sequence may start; it stands for its character if it is a whole sequence, and for one replacement
character if not. Feeding the octets to a decoder and finishing it gives the same text.
-/
namespace AgentWorkbench.Text.Utf8

/-- Takes octets to a started sequence, as long as they extend it and it is not whole. -/
def munch (part : List UInt8) : List UInt8 → List UInt8 × List UInt8
  | [] => (part, [])
  | b :: rest =>
    if part.length < width (part.headD 0) ∧ extends? part b then munch (part ++ [b]) rest
    else (part, b :: rest)

/-- What a run of octets stands for. -/
def settle (part : List UInt8) : Char :=
  if part.length = width (part.headD 0) then Char.ofNat (codePoint part) else replacement

theorem munch_length_le (part bs : List UInt8) : (munch part bs).2.length ≤ bs.length := by
  induction bs generalizing part with
  | nil => exact Nat.le_refl 0
  | cons b rest ih =>
      rw [munch]
      split
      · exact Nat.le_succ_of_le (ih (part ++ [b]))
      · exact Nat.le_refl _

def lossy : List UInt8 → List Char
  | [] => []
  | b :: rest => settle (munch [b] rest).1 :: lossy (munch [b] rest).2
termination_by bs => bs.length
decreasing_by exact Nat.lt_succ_of_le (munch_length_le [b] rest)

theorem munch_whole {part : List UInt8} (whole : part.length = width (part.headD 0))
    (bs : List UInt8) : munch part bs = (part, bs) := by
  cases bs with
  | nil => rfl
  | cons b rest => rw [munch, if_neg (by omega)]

namespace Decoder

/-- What a decoder makes of the octets that are left. -/
def decodeAll (d : Decoder) (bs : List UInt8) : List Char :=
  (d.decode bs).1 ++ (d.decode bs).2.finish

theorem decodeAll_cons (d : Decoder) (b : UInt8) (rest : List UInt8) :
    d.decodeAll (b :: rest) = (d.feed b).1 ++ (d.feed b).2.decodeAll rest := by
  simp [decodeAll, decode]

/-- A started sequence that is not whole. -/
structure Unfinished (part : List UInt8) : Prop where
  started : part ≠ []
  short : part.length < width (part.headD 0)

theorem Unfinished.settle {part : List UInt8} (h : Unfinished part) :
    settle part = replacement :=
  if_neg (Nat.ne_of_lt h.short)

theorem feed_unfinished {part : List UInt8} (h : Unfinished part) (b : UInt8) :
    feed ⟨part⟩ b =
      if extends? part b then
        if part.length + 1 = width (part.headD 0) then
          ([Char.ofNat (codePoint (part ++ [b]))], {})
        else ([], ⟨part ++ [b]⟩)
      else (replacement :: (feed {} b).1, (feed {} b).2) := by
  cases part with
  | nil => exact absurd rfl h.started
  | cons lead more => simp [feed]

/-- A fresh decoder decodes the text, and one inside a sequence first settles that. -/
theorem decodeAll_eq (bs : List UInt8) :
    decodeAll {} bs = lossy bs ∧
      ∀ part, Unfinished part →
        decodeAll ⟨part⟩ bs = settle (munch part bs).1 :: lossy (munch part bs).2 := by
  induction bs with
  | nil =>
      refine ⟨by rw [lossy]; rfl, fun part h => ?_⟩
      rw [munch, h.settle, lossy]
      simp [decodeAll, decode, finish, h.started]
  | cons b rest ih =>
      obtain ⟨fresh, inside⟩ := ih
      have fresh_cons : decodeAll {} (b :: rest) = lossy (b :: rest) := by
        rw [decodeAll_cons, lossy]
        rcases h : width b with _ | _ | n
        · have feed_eq : feed {} b = ([replacement], {}) := by simp [feed, start, h]
          have munch_eq : munch [b] rest = ([b], rest) := by cases rest <;> simp [munch, h]
          have settle_eq : settle [b] = replacement := if_neg (by simp [h])
          rw [feed_eq, munch_eq, settle_eq, fresh]
          rfl
        · have feed_eq : feed {} b = ([Char.ofNat b.toNat], {}) := by simp [feed, start, h]
          have munch_eq : munch [b] rest = ([b], rest) := munch_whole (by simp [h]) rest
          have settle_eq : settle [b] = Char.ofNat b.toNat := if_pos (by simp [h])
          rw [feed_eq, munch_eq, settle_eq, fresh]
          rfl
        · have feed_eq : feed {} b = ([], ⟨[b]⟩) := by simp [feed, start, h]
          have unfinished : Unfinished [b] := ⟨by simp, by simp [h]⟩
          rw [feed_eq, inside [b] unfinished]
          rfl
      refine ⟨fresh_cons, fun part h => ?_⟩
      rw [decodeAll_cons, feed_unfinished h, munch]
      by_cases fits : extends? part b = true
      · have grown_head : (part ++ [b]).headD 0 = part.headD 0 := by
          cases part with
          | nil => exact absurd rfl h.started
          | cons lead more => rfl
        have extended : part.length < width (part.headD 0) ∧ extends? part b = true :=
          ⟨h.short, fits⟩
        rw [if_pos fits, if_pos extended]
        split
        · next full =>
            have whole : (part ++ [b]).length = width ((part ++ [b]).headD 0) := by
              rw [grown_head, ← full, List.length_append, List.length_singleton]
            rw [munch_whole whole, settle, if_pos whole, fresh]
            rfl
        · next short =>
            have longer : Unfinished (part ++ [b]) := by
              refine ⟨by simp, ?_⟩
              have := h.short
              rw [grown_head, List.length_append, List.length_singleton]
              omega
            rw [inside _ longer]
            rfl
      · rw [if_neg fits, if_neg fun both => fits both.2, h.settle, ← fresh_cons, decodeAll_cons]
        rfl

end Decoder

theorem decodeLossy_eq_lossy (bs : List UInt8) : decodeLossy bs = lossy bs :=
  (Decoder.decodeAll_eq bs).1

end AgentWorkbench.Text.Utf8
