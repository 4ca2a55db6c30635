import AgentWorkbench.Graph.Basic
import Mathlib.Tactic.Ring

/-!
Whole numbers in floating point. Below 2 ^ 53 they are exact, and so are their products, as far as
these stay below; so the nodes of a graph lie where multiplication says, on a diagonal.
-/
namespace AgentWorkbench

namespace Binary64

/-- The value is this natural number, not rounded. -/
structure IsWhole (x : Binary64) (n : Nat) : Prop where
  positive : x.negative = false
  value : x.numerator = n * x.denominator

theorem isWhole_zero : zero.IsWhole 0 where
  positive := rfl
  value := by
    rw [Nat.zero_mul, numerator]
    exact Nat.zero_mul _

theorem divNearest_mul {den : Nat} (h : 0 < den) (n : Nat) : divNearest (n * den) den = n := by
  simp [divNearest, Nat.mul_div_cancel n h, h]

theorem log2_mul_two_pow {n : Nat} (h : n ≠ 0) (j : Nat) :
    Nat.log2 (n * 2 ^ j) = Nat.log2 n + j := by
  have positive : 0 < 2 ^ j := Nat.two_pow_pos j
  rw [Nat.log2_eq_iff (Nat.mul_ne_zero h positive.ne'), Nat.add_right_comm, Nat.pow_add,
    Nat.pow_add]
  exact ⟨Nat.mul_le_mul_right _ (Nat.log2_self_le h), Nat.mul_lt_mul_of_pos_right Nat.lt_log2_self
    positive⟩

/-- The grid for a whole number is that of its highest bit. -/
theorem gridExponent_whole {n : Nat} (h : n ≠ 0) (j : Nat) :
    gridExponent (n * 2 ^ j) (2 ^ j) = (Nat.log2 n : Int) - 52 := by
  have guess : (Nat.log2 (n * 2 ^ j) : Int) - Nat.log2 (2 ^ j) = Nat.log2 n := by
    rw [log2_mul_two_pow h, Nat.log2_two_pow]
    omega
  have above : ¬ n * 2 ^ j * 2 ^ (-(Nat.log2 n : Int)).toNat <
      2 ^ j * 2 ^ (Nat.log2 n : Int).toNat := by
    have exponent : (-(Nat.log2 n : Int)).toNat = 0 := by omega
    rw [exponent, Int.toNat_natCast, Nat.pow_zero, Nat.mul_one, Nat.mul_comm n, Nat.not_lt]
    exact Nat.mul_le_mul_left _ (Nat.log2_self_le h)
  simp only [gridExponent, guess, Nat.pow_eq, if_neg above]
  omega

/-- A number whose mantissa has all its bits, the last `shift` of them behind the point. -/
theorem isWhole_of_code {n shift : Nat} (low : hiddenBit ≤ n * 2 ^ shift)
    (high : n * 2 ^ shift < 2 * hiddenBit) (most : shift ≤ 52) :
    IsWhole ⟨false, (1074 - shift) * hiddenBit + n * 2 ^ shift⟩ n := by
  have large : ¬ (1074 - shift) * hiddenBit + n * 2 ^ shift < hiddenBit := by omega
  have quotient : ((1074 - shift) * hiddenBit + n * 2 ^ shift) / hiddenBit = 1075 - shift := by
    have one : n * 2 ^ shift / hiddenBit = 1 :=
      Nat.div_eq_of_lt_le (by rwa [Nat.one_mul]) (by omega)
    rw [Nat.mul_comm, Nat.mul_add_div (by decide), one]
    omega
  have remainder : ((1074 - shift) * hiddenBit + n * 2 ^ shift) % hiddenBit =
      n * 2 ^ shift - hiddenBit := by
    rw [Nat.mul_comm, Nat.mul_add_mod, Nat.mod_eq_sub_mod low, Nat.mod_eq_of_lt (by omega)]
  refine ⟨rfl, ?_⟩
  have exponent : ((1075 - shift : Nat) : Int) - 1075 = -(shift : Int) := by omega
  simp only [numerator, denominator, mantissa, Binary64.exponent, if_neg large, quotient, remainder,
    exponent, Nat.sub_add_cancel low, Int.neg_neg, Int.toNat_natCast, Nat.pow_eq]
  rw [Int.toNat_of_nonpos (by omega), Nat.pow_zero, Nat.mul_one]

theorem codeOfRatio_whole {n shift : Nat} (h : n ≠ 0) (bits : Nat.log2 n + shift = 52) (j : Nat) :
    codeOfRatio (n * 2 ^ j) (2 ^ j) = (1074 - shift) * hiddenBit + n * 2 ^ shift := by
  have positive : 0 < 2 ^ j := Nat.two_pow_pos j
  have grid : (Nat.log2 n : Int) - 52 = -(shift : Int) := by omega
  have whole : n * 2 ^ j * 2 ^ shift = n * 2 ^ shift * 2 ^ j := Nat.mul_right_comm ..
  rw [codeOfRatio, if_neg (Nat.mul_ne_zero h positive.ne')]
  simp only [gridExponent_whole h, grid, Int.neg_neg, Int.toNat_natCast, Nat.pow_eq,
    Int.toNat_of_nonpos (Int.neg_nonpos_of_nonneg (Int.natCast_nonneg shift)), Nat.pow_zero,
    Nat.mul_one, whole, divNearest_mul positive]
  congr 2
  omega

theorem ofRatio?_whole {n : Nat} (small : n < 2 ^ 53) (j : Nat) :
    ∃ x, ofRatio? false (n * 2 ^ j) (2 ^ j) = some x ∧ x.IsWhole n := by
  rcases Nat.eq_zero_or_pos n with rfl | positive
  · rw [Nat.zero_mul]
    exact ⟨zero, rfl, isWhole_zero⟩
  · have bits : Nat.log2 n < 53 := (Nat.log2_lt positive.ne').mpr small
    obtain ⟨shift, bits⟩ : ∃ shift, Nat.log2 n + shift = 52 := ⟨52 - Nat.log2 n, by omega⟩
    have unit : hiddenBit = 2 ^ Nat.log2 n * 2 ^ shift := by rw [← Nat.pow_add, bits, hiddenBit]
    have low : hiddenBit ≤ n * 2 ^ shift := by
      rw [unit]
      exact Nat.mul_le_mul_right _ (Nat.log2_self_le positive.ne')
    have high : n * 2 ^ shift < 2 * hiddenBit := by
      rw [unit, ← Nat.mul_assoc, ← Nat.pow_succ']
      exact Nat.mul_lt_mul_of_pos_right Nat.lt_log2_self (Nat.two_pow_pos shift)
    have code := codeOfRatio_whole positive.ne' bits j
    refine ⟨_, ?_, isWhole_of_code low high (by omega)⟩
    have finite : (1074 - shift) * hiddenBit + n * 2 ^ shift < codeLimit := by
      have fields : (1074 - shift) * hiddenBit ≤ 1074 * hiddenBit :=
        Nat.mul_le_mul_right _ (Nat.sub_le 1074 shift)
      have limit : 1076 * hiddenBit ≤ codeLimit := by decide
      omega
    simp only [ofRatio?, code, if_pos finite]

theorem isWhole_ofNat {n : Nat} (small : n < 2 ^ 53) : (ofNat n).IsWhole n := by
  obtain ⟨x, rounded, whole⟩ := ofRatio?_whole small 0
  rw [Nat.pow_zero, Nat.mul_one] at rounded
  rw [ofNat, rounded]
  exact whole

theorem exists_denominator_eq (x : Binary64) : ∃ j, x.denominator = 2 ^ j := ⟨_, rfl⟩

theorem mul?_whole {x y : Binary64} {m n : Nat} (hx : x.IsWhole m) (hy : y.IsWhole n)
    (small : m * n < 2 ^ 53) : ∃ z, x.mul? y = some z ∧ z.IsWhole (m * n) := by
  obtain ⟨i, hi⟩ := x.exists_denominator_eq
  obtain ⟨j, hj⟩ := y.exists_denominator_eq
  have numerator : x.numerator * y.numerator = m * n * 2 ^ (i + j) := by
    rw [hx.value, hy.value, hi, hj, Nat.pow_add]
    ring
  have denominator : x.denominator * y.denominator = 2 ^ (i + j) := by rw [hi, hj, Nat.pow_add]
  rw [mul?, numerator, denominator, hx.positive, hy.positive]
  exact ofRatio?_whole small (i + j)

end Binary64

namespace Position

open Binary64

theorem isWhole_along {spacing k : Nat} (step : spacing < 2 ^ 53) (count : k < 2 ^ 53)
    (small : spacing * k < 2 ^ 53) : (along spacing k).IsWhole (spacing * k) := by
  obtain ⟨z, product, whole⟩ := mul?_whole (isWhole_ofNat step) (isWhole_ofNat count) small
  rwa [along, product, Option.getD_some]

/-- The place of the `k`-th node, for numbers that floating point holds. -/
theorem onDiagonal_whole {k : Nat} (small : 250 * k < 2 ^ 53) :
    (onDiagonal k).x.IsWhole (250 * k) ∧ (onDiagonal k).y.IsWhole (100 * k) := by
  have count : k < 2 ^ 53 := by omega
  have down : 100 * k < 2 ^ 53 := by omega
  exact ⟨isWhole_along (by decide) count small, isWhole_along (by decide) count down⟩

end Position

end AgentWorkbench
