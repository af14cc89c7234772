/-
# Fractions as rational numbers

What is computed with fractions depends on their values alone.  Scaling multiplies by a power, the
logarithms are those of the value, and rounding goes to the nearest natural number, a half to the
even one; `IsNearest` says that without the fraction, so rounding is monotone and keeps what is
whole already.
-/
import FilmQuery.Number.Ratio
import Mathlib.Data.Int.Log
import Mathlib.Data.Rat.Floor
import Mathlib.Tactic.FieldSimp
import Mathlib.Tactic.Linarith
import Mathlib.Tactic.Positivity
import Mathlib.Tactic.Ring

namespace FilmQuery.Number

/-- A natural number nearest to a rational one; at a distance of one half it is even. -/
structure IsNearest (x : ℚ) (n : ℕ) : Prop where
  near : |x - n| ≤ 1 / 2
  even : |x - n| = 1 / 2 → Even n

namespace IsNearest

variable {x y : ℚ} {m n : ℕ}

theorem natCast (n : ℕ) : IsNearest n n := by
  constructor <;> norm_num

/-- Rounding is monotone. -/
theorem mono (first : IsNearest x m) (second : IsNearest y n) (le : x ≤ y) : m ≤ n := by
  by_contra! lt
  have above : (n : ℚ) + 1 ≤ m := by exact_mod_cast lt
  have low := (abs_le.mp first.near).1
  have high := (abs_le.mp second.near).2
  -- Both are pushed as far as they go, so both are even, and they are neighbours.
  have edge : x - m = -(1 / 2) := by linarith
  have edge' : y - n = 1 / 2 := by linarith
  have evenM := first.even (by rw [edge]; norm_num)
  have evenN := second.even (by rw [edge']; norm_num)
  have next : m = n + 1 := by
    have : (m : ℚ) = n + 1 := by linarith
    exact_mod_cast this
  rw [next, Nat.even_add_one] at evenM
  exact evenM evenN

/-- No natural number is nearer. -/
theorem le_abs_sub (nearest : IsNearest x n) (m : ℕ) : |x - n| ≤ |x - m| := by
  rcases lt_trichotomy m n with lt | rfl | gt
  · have below : (m : ℚ) + 1 ≤ n := by exact_mod_cast lt
    have low := (abs_le.mp nearest.near).1
    have far := le_abs_self (x - m)
    linarith [nearest.near]
  · exact le_rfl
  · have above : (n : ℚ) + 1 ≤ m := by exact_mod_cast gt
    have high := (abs_le.mp nearest.near).2
    have far := neg_le_abs (x - m)
    linarith [nearest.near]

/-- A natural number at less than half a unit is the nearest one. -/
theorem of_lt (near : |x - n| < 1 / 2) : IsNearest x n :=
  ⟨near.le, fun edge => absurd edge near.ne⟩

theorem unique (first : IsNearest x m) (second : IsNearest x n) : m = n :=
  le_antisymm (first.mono second le_rfl) (second.mono first le_rfl)

end IsNearest

theorem roundDiv_isNearest (num : ℕ) {den : ℕ} (pos : 0 < den) :
    IsNearest ((num : ℚ) / den) (roundDiv num den) := by
  have posQ : (0 : ℚ) < den := by exact_mod_cast pos
  have small : num % den < den := Nat.mod_lt _ pos
  have parts : (num : ℚ) / den = (num / den : ℕ) + ((num % den : ℕ) : ℚ) / den := by
    have whole : ((den * (num / den) + num % den : ℕ) : ℚ) = num := by rw [Nat.div_add_mod]
    rw [← whole]
    push_cast
    field_simp
  have below : (0 : ℚ) ≤ ((num % den : ℕ) : ℚ) / den := by positivity
  have above : ((num % den : ℕ) : ℚ) / den < 1 := by
    rw [div_lt_one posQ]
    exact_mod_cast small
  have half : ((num % den : ℕ) : ℚ) / den < 1 / 2 ↔ 2 * (num % den) < den := by
    rw [div_lt_div_iff₀ posQ two_pos, one_mul, mul_comm]
    exact_mod_cast Iff.rfl
  have half' : 1 / 2 < ((num % den : ℕ) : ℚ) / den ↔ den < 2 * (num % den) := by
    rw [div_lt_div_iff₀ two_pos posQ, one_mul, mul_comm]
    exact_mod_cast Iff.rfl
  rw [parts, roundDiv]
  generalize ((num % den : ℕ) : ℚ) / den = fraction at *
  split_ifs with less more
  · have lt := half.mpr less
    have distance : |((num / den : ℕ) : ℚ) + fraction - (num / den : ℕ)| = fraction := by
      rw [add_sub_cancel_left, abs_of_nonneg below]
    exact ⟨by rw [distance]; exact lt.le, fun edge => absurd (distance ▸ edge) lt.ne⟩
  · have gt := half'.mpr more
    have distance : |((num / den : ℕ) : ℚ) + fraction - (num / den + 1 : ℕ)| = 1 - fraction := by
      push_cast
      rw [abs_sub_comm, abs_of_nonneg (by linarith)]
      ring
    exact ⟨by rw [distance]; linarith, fun edge => by rw [distance] at edge; linarith⟩
  · have eq : fraction = 1 / 2 :=
      le_antisymm (not_lt.mp (mt half'.mp more)) (not_lt.mp (mt half.mp less))
    rw [eq]
    rcases Nat.mod_two_eq_zero_or_one (num / den) with even | odd
    · rw [even, add_zero]
      exact ⟨by norm_num, fun _ => Nat.even_iff.mpr even⟩
    · rw [odd]
      refine ⟨by push_cast; norm_num, fun _ => ?_⟩
      rw [Nat.even_add_one, Nat.not_even_iff]
      exact odd

namespace Ratio

/-- The value of a fraction. -/
def value (r : Ratio) : ℚ := r.num / r.den

variable {r : Ratio} {base : ℕ}

theorem value_pos (num : 0 < r.num) (den : 0 < r.den) : 0 < r.value := by
  have numQ : (0 : ℚ) < r.num := by exact_mod_cast num
  have denQ : (0 : ℚ) < r.den := by exact_mod_cast den
  exact div_pos numQ denQ

theorem num_pos_of_value_pos (pos : 0 < r.value) : 0 < r.num := by
  by_contra! none
  have zero : r.value = 0 := by simp [value, Nat.le_zero.mp none]
  exact lt_irrefl _ (zero ▸ pos)

@[simp]
theorem value_ofNat (n : ℕ) : (ofNat n).value = n := by simp [value, ofNat]

theorem den_scale_pos (den : 0 < r.den) (pos : 0 < base) (exponent : ℤ) :
    0 < (r.scale base exponent).den := by
  unfold scale
  split
  · exact den
  · exact Nat.mul_pos den (Nat.pow_pos pos)

theorem value_scale (pos : 0 < base) (exponent : ℤ) :
    (r.scale base exponent).value = r.value * (base : ℚ) ^ exponent := by
  have baseQ : (base : ℚ) ≠ 0 := by exact_mod_cast pos.ne'
  unfold scale
  split
  next nonneg =>
    obtain ⟨n, rfl⟩ := Int.eq_ofNat_of_zero_le nonneg
    simp only [value, Int.toNat_natCast, zpow_natCast, Nat.pow_eq]
    push_cast
    ring
  next negative =>
    obtain ⟨n, rfl⟩ : ∃ n : ℕ, exponent = -(n : ℤ) := ⟨(-exponent).toNat, by omega⟩
    simp only [value, neg_neg, Int.toNat_natCast, zpow_neg, zpow_natCast, Nat.pow_eq]
    push_cast
    rw [div_mul_eq_div_div, div_eq_mul_inv]

theorem round_isNearest (den : 0 < r.den) : IsNearest r.value r.round :=
  roundDiv_isNearest r.num den

theorem reachesOne_iff (den : 0 < r.den) : r.reachesOne = true ↔ 1 ≤ r.value := by
  have denQ : (0 : ℚ) < r.den := by exact_mod_cast den
  rw [reachesOne, decide_eq_true_eq, value, one_le_div denQ]
  exact_mod_cast Iff.rfl

/-- The logarithm of a fraction is the difference of those of its parts, or one less. -/
theorem log_value (one_lt : 1 < base) (num : 0 < r.num) (den : 0 < r.den) :
    let e : ℤ := Nat.log base r.num - Nat.log base r.den
    (if (r.scale base (-e)).reachesOne then e else e - 1) = Int.log base r.value := by
  have pos := value_pos num den
  have base_pos : 0 < base := by omega
  have baseQ : (0 : ℚ) < base := by exact_mod_cast base_pos
  have denQ : (0 : ℚ) < r.den := by exact_mod_cast den
  have numLow : (base : ℚ) ^ Nat.log base r.num ≤ r.num := by
    exact_mod_cast Nat.pow_log_le_self base num.ne'
  have numHigh : (r.num : ℚ) < (base : ℚ) ^ (Nat.log base r.num + 1) := by
    exact_mod_cast Nat.lt_pow_succ_log_self one_lt r.num
  have denLow : (base : ℚ) ^ Nat.log base r.den ≤ r.den := by
    exact_mod_cast Nat.pow_log_le_self base den.ne'
  have denHigh : (r.den : ℚ) < (base : ℚ) ^ (Nat.log base r.den + 1) := by
    exact_mod_cast Nat.lt_pow_succ_log_self one_lt r.den
  intro e
  have low : e - 1 ≤ Int.log base r.value := by
    have split : (base : ℚ) ^ (e - 1) =
        base ^ Nat.log base r.num / base ^ (Nat.log base r.den + 1) := by
      rw [show e - 1 = (Nat.log base r.num : ℤ) - (Nat.log base r.den + 1 : ℕ) by push_cast; omega,
        zpow_sub₀ baseQ.ne', zpow_natCast, zpow_natCast]
    rw [← Int.zpow_le_iff_le_log one_lt pos, split, value]
    exact div_le_div₀ (by positivity) numLow denQ denHigh.le
  have high : Int.log base r.value < e + 1 := by
    have split : (base : ℚ) ^ (e + 1) =
        base ^ (Nat.log base r.num + 1) / base ^ Nat.log base r.den := by
      rw [show e + 1 = ((Nat.log base r.num + 1 : ℕ) : ℤ) - (Nat.log base r.den : ℕ) by
          push_cast; omega,
        zpow_sub₀ baseQ.ne', zpow_natCast, zpow_natCast]
    rw [← Int.lt_zpow_iff_log_lt one_lt pos, split, value]
    exact div_lt_div₀ numHigh denLow (by positivity) (by positivity)
  have reaches : (r.scale base (-e)).reachesOne = true ↔ e ≤ Int.log base r.value := by
    rw [reachesOne_iff (den_scale_pos den base_pos _), value_scale base_pos, zpow_neg,
      ← div_eq_mul_inv, one_le_div (zpow_pos baseQ _), Int.zpow_le_iff_le_log one_lt pos]
  split
  next reached =>
    have := reaches.mp reached
    omega
  next short =>
    have := mt reaches.mpr short
    omega

theorem floorLog2_eq (num : 0 < r.num) (den : 0 < r.den) : r.floorLog2 = Int.log 2 r.value := by
  rw [← log_value one_lt_two num den, floorLog2]
  simp only [Nat.log2_eq_log_two]

/-- The exponent of the highest decimal digit is the logarithm. -/
theorem log10_eq {n : ℕ} (pos : 0 < n) : log10 n = Nat.log 10 n := by
  have length (k : ℕ) (kPos : 0 < k) : (decimalDigits n).length ≤ k ↔ n < 10 ^ k :=
    Nat.length_toDigits_le_iff (by norm_num) kPos
  have low := Nat.pow_log_le_self 10 pos.ne'
  have high := Nat.lt_pow_succ_log_self (by norm_num : 1 < 10) n
  have le := (length _ (Nat.succ_pos _)).mpr high
  rcases Nat.eq_zero_or_pos (Nat.log 10 n) with zero | logPos
  · rw [log10, zero]
    omega
  · have gt := mt (length _ logPos).mp (by omega)
    rw [log10]
    omega

theorem floorLog10_eq (num : 0 < r.num) (den : 0 < r.den) : r.floorLog10 = Int.log 10 r.value := by
  rw [← log_value (by norm_num) num den, floorLog10]
  simp only [log10_eq num, log10_eq den]

end Ratio

end FilmQuery.Number
