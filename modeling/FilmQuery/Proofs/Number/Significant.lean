/-
# Six digits are enough for six digits

A double is shown with six significant digits.  If it comes from a decimal with no more than six,
then what is shown reads back as the same double (`nearestRank_shown`): the decimal that is shown
is as near to the double as the one it comes from, and decimals with six digits are so far apart
that it has to be the same one, unless the double is subnormal and the rounding is the same on both
sides.
-/
import FilmQuery.Number.Decimal
import FilmQuery.Proofs.Number.Ranks

namespace FilmQuery.Number

open Binary64

/-- A number that six decimal digits write. -/
def HasSixDigits (x : ℚ) : Prop := ∃ c < 10 ^ 6, ∃ e : ℤ, x = (c : ℕ) * (10 : ℚ) ^ e

variable {x : ℚ} {u : ℤ}

/-- From the sixth digit on, a number with six digits has no others. -/
theorem HasSixDigits.exists_multiple (short : HasSixDigits x) (le : 10 ^ 5 * (10 : ℚ) ^ u ≤ x) :
    ∃ n : ℕ, x = n * (10 : ℚ) ^ u := by
  obtain ⟨c, small, e, rfl⟩ := short
  have order : 5 + u < 6 + e := by
    rw [← zpow_lt_zpow_iff_right₀ (by norm_num : (1 : ℚ) < 10), zpow_add₀ (by norm_num),
      zpow_add₀ (by norm_num)]
    exact le.trans_lt (mul_lt_mul_of_pos_right (by exact_mod_cast small) (zpow_pos (by norm_num) e))
  obtain ⟨k, gap⟩ : ∃ k : ℕ, e = k + u := ⟨(e - u).toNat, by omega⟩
  refine ⟨c * 10 ^ k, ?_⟩
  rw [gap, zpow_add₀ (by norm_num), zpow_natCast]
  push_cast
  ring

/-- Below a power of ten, numbers with six digits keep their distance. -/
theorem HasSixDigits.le_of_lt (short : HasSixDigits x) (lt : x < 10 ^ 5 * (10 : ℚ) ^ u) :
    x ≤ 10 ^ 5 * (10 : ℚ) ^ u - (10 : ℚ) ^ u / 10 := by
  have unit : (10 : ℚ) ^ u = 10 * (10 : ℚ) ^ (u - 1) := by
    rw [zpow_sub_one₀ (by norm_num)]
    field_simp
  have pos : (0 : ℚ) < (10 : ℚ) ^ (u - 1) := zpow_pos (by norm_num) _
  rcases le_or_gt (10 ^ 5 * (10 : ℚ) ^ (u - 1)) x with le | small
  · obtain ⟨n, rfl⟩ := short.exists_multiple le
    have bound : n < 10 ^ 6 := by
      have product : (n : ℚ) * (10 : ℚ) ^ (u - 1) < 10 ^ 6 * (10 : ℚ) ^ (u - 1) := by
        rw [unit] at lt
        linarith
      exact_mod_cast lt_of_mul_lt_mul_right product pos.le
    have most : (n : ℚ) + 1 ≤ 10 ^ 6 := by exact_mod_cast bound
    have product := mul_le_mul_of_nonneg_right most pos.le
    rw [unit]
    linarith
  · rw [unit]
    linarith

namespace Decimal

variable {rank : ℕ} {r : Ratio}

/-- The decimal with six digits that is shown for a double. -/
def shown (rank : ℕ) : Decimal := nearest 6 (magnitude rank)

theorem den_toRatio_pos (d : Decimal) : 0 < d.toRatio.den :=
  Ratio.den_scale_pos Nat.one_pos (by norm_num) _

theorem value_toRatio (d : Decimal) : d.toRatio.value = d.coefficient * (10 : ℚ) ^ d.exponent := by
  rw [toRatio, Ratio.value_scale (by norm_num), Ratio.value_ofNat]
  norm_num

/-- The decimal that is shown has the unit of the sixth digit of the double. -/
theorem shown_spec (pos : 0 < rank) :
    ∃ u : ℤ, (shown rank).exponent = u ∧
      IsNearest (rankValue rank * (10 : ℚ) ^ (-u)) (shown rank).coefficient ∧
      10 ^ 5 * (10 : ℚ) ^ u ≤ rankValue rank ∧ rankValue rank < 10 ^ 6 * (10 : ℚ) ^ u := by
  have valuePos : 0 < rankValue rank := rankValue_pos pos
  have den := den_magnitude_pos rank
  have log := Ratio.floorLog10_eq (Ratio.num_pos_of_value_pos valuePos) den
  have low := Int.zpow_log_le_self (b := 10) (by norm_num) valuePos
  have high := Int.lt_zpow_succ_log_self (b := 10) (by norm_num) (rankValue rank)
  refine ⟨(magnitude rank).floorLog10 - 5, rfl, ?_, ?_, ?_⟩
  · have rounded := Ratio.round_isNearest
      (Ratio.den_scale_pos den (by norm_num : 0 < 10) (-((magnitude rank).floorLog10 - 5)))
    rw [Ratio.value_scale (by norm_num)] at rounded
    exact_mod_cast rounded
  · rw [log]
    calc
      10 ^ 5 * (10 : ℚ) ^ (Int.log 10 (rankValue rank) - 5) =
          (10 : ℚ) ^ (5 + (Int.log 10 (rankValue rank) - 5)) := by
        rw [zpow_add₀ (by norm_num)]
        norm_cast
      _ ≤ rankValue rank := by
        rw [add_sub_cancel]
        exact_mod_cast low
  · rw [log]
    calc
      rankValue rank < (10 : ℚ) ^ (6 + (Int.log 10 (rankValue rank) - 5)) := by
        rw [show 6 + (Int.log 10 (rankValue rank) - 5) = Int.log 10 (rankValue rank) + 1 by ring]
        exact_mod_cast high
      _ = 10 ^ 6 * (10 : ℚ) ^ (Int.log 10 (rankValue rank) - 5) := by
        rw [zpow_add₀ (by norm_num)]
        norm_cast

/-- A double above the subnormal ones, which comes from a decimal with six digits, is shown as that
decimal. -/
theorem value_shown_of_normal (num : 0 < r.num) (den : 0 < r.den) (short : HasSixDigits r.value)
    (rounded : nearestRank r = rank) (normal : binadeSize ≤ rank) :
    (shown rank).toRatio.value = r.value := by
  have size := binadeSize_eq
  obtain ⟨u, exponent, isNearest, low, high⟩ := shown_spec (by omega : 0 < rank)
  have unit : (0 : ℚ) < (10 : ℚ) ^ u := zpow_pos (by norm_num) _
  have near : |r.value - rankValue rank| < (10 : ℚ) ^ u / 100 := by
    have half := nearestRank_near num den
    obtain ⟨n, _, isStep, eq⟩ := nearestRank_eq num den
    have large : 2 ^ 52 ≤ n := by
      rcases isStep.least with smallest | large
      · rw [rounded, step, smallest, neg_add_cancel, Int.toNat_zero] at eq
        omega
      · exact large
    have spacingPos : (0 : ℚ) < (2 : ℚ) ^ spacing r.value := zpow_pos two_pos _
    have value : rankValue rank = n * (2 : ℚ) ^ spacing r.value := by
      rw [← rounded, eq, rankValue_step isStep]
    have wide : 2 ^ 52 * (2 : ℚ) ^ spacing r.value ≤ rankValue rank := by
      rw [value]
      exact mul_le_mul_of_nonneg_right (by exact_mod_cast large) spacingPos.le
    rw [rounded] at half
    linarith
  rcases le_or_gt (10 ^ 5 * (10 : ℚ) ^ u) r.value with le | lt
  · obtain ⟨n, multiple⟩ := short.exists_multiple le
    have same : (shown rank).coefficient = n := by
      refine isNearest.unique (.of_lt ?_)
      have scaled : rankValue rank * (10 : ℚ) ^ (-u) - n =
          (rankValue rank - r.value) / (10 : ℚ) ^ u := by
        rw [multiple, zpow_neg]
        field_simp
      rw [scaled, abs_div, abs_of_pos unit, abs_sub_comm, div_lt_iff₀ unit]
      linarith
    rw [value_toRatio, same, exponent, multiple]
  · have gap := short.le_of_lt lt
    have far := le_abs_self (rankValue rank - r.value)
    rw [abs_sub_comm] at far
    linarith

/-- No decimal with six digits is nearer to a double than the one that is shown. -/
theorem abs_shown_sub_le (pos : 0 < rank) (short : HasSixDigits x) :
    |(shown rank).toRatio.value - rankValue rank| ≤ |x - rankValue rank| := by
  obtain ⟨u, exponent, isNearest, low, _⟩ := shown_spec pos
  have unit : (0 : ℚ) < (10 : ℚ) ^ u := zpow_pos (by norm_num) _
  have closest (n : ℕ) : |(shown rank).toRatio.value - rankValue rank| ≤
      |n * (10 : ℚ) ^ u - rankValue rank| := by
    have scaled (k : ℕ) : k * (10 : ℚ) ^ u - rankValue rank =
        -((rankValue rank * (10 : ℚ) ^ (-u) - k) * (10 : ℚ) ^ u) := by
      rw [zpow_neg]
      field_simp
      ring
    rw [value_toRatio, exponent, scaled, scaled, abs_neg, abs_neg, abs_mul, abs_mul]
    exact mul_le_mul_of_nonneg_right (isNearest.le_abs_sub n) (abs_nonneg _)
  rcases le_or_gt (10 ^ 5 * (10 : ℚ) ^ u) x with le | lt
  · obtain ⟨n, rfl⟩ := short.exists_multiple le
    exact closest n
  · -- The power of ten between them is nearer than `x`.
    have between := closest (10 ^ 5)
    rw [Nat.cast_pow, Nat.cast_ofNat, abs_sub_comm (10 ^ 5 * (10 : ℚ) ^ u),
      abs_of_nonneg (sub_nonneg.mpr low)] at between
    rw [abs_sub_comm x, abs_of_nonneg (sub_nonneg.mpr (lt.le.trans low))]
    linarith

/-- What is shown of a subnormal double that comes from a decimal with six digits is rounded like
that decimal. -/
theorem nearestRank_shown_of_subnormal (num : 0 < r.num) (den : 0 < r.den)
    (short : HasSixDigits r.value) (rounded : nearestRank r = rank) (pos : 0 < rank)
    (subnormal : rank < binadeSize) :
    nearestRank (shown rank).toRatio = rank := by
  have size := binadeSize_eq
  obtain ⟨n, isNearest, isStep, eq⟩ := nearestRank_eq num den
  have smallest : spacing r.value = -1074 := by
    refine isStep.least.resolve_right fun large => ?_
    rw [rounded, step] at eq
    omega
  rw [rounded, step, smallest, neg_add_cancel, Int.toNat_zero, Nat.zero_mul, Nat.add_zero] at eq
  rw [smallest, ← eq] at isNearest
  -- The smallest double as a unit; its size does not matter below.
  obtain ⟨unit, scale⟩ : ∃ unit : ℚ, (2 : ℚ) ^ (- -1074 : ℤ) = unit := ⟨_, rfl⟩
  have unitPos : 0 < unit := scale ▸ zpow_pos two_pos _
  have power : ((2 : ℕ) : ℚ) ^ (-1021 : ℤ) * unit = 2 ^ 53 := by
    rw [← scale, Nat.cast_ofNat, ← zpow_add₀ two_ne_zero]
    norm_num
  have value : rankValue rank * unit = rank := by
    have here : step (-1074) rank = rank := by simp [step]
    have steps := rankValue_step (s := -1074) (n := rank) ⟨le_rfl, by omega, .inl rfl⟩
    rw [here] at steps
    rw [← scale, steps, mul_assoc, ← zpow_add₀ two_ne_zero, add_neg_cancel, zpow_zero, mul_one]
  have distance (y : ℚ) : |y * unit - rank| = |y - rankValue rank| * unit := by
    rw [← value, ← sub_mul, abs_mul, abs_of_pos unitPos]
  rw [scale] at isNearest
  have nearer : |(shown rank).toRatio.value * unit - rank| ≤ |r.value * unit - rank| := by
    rw [distance, distance]
    exact mul_le_mul_of_nonneg_right (abs_shown_sub_le pos short) unitPos.le
  have isNearestShown : IsNearest ((shown rank).toRatio.value * unit) rank :=
    ⟨nearer.trans isNearest.near, fun edge =>
      isNearest.even (le_antisymm isNearest.near (edge ▸ nearer))⟩
  have within := abs_le.mp isNearestShown.near
  have least : (1 : ℚ) ≤ rank := by exact_mod_cast pos
  have most : (rank : ℚ) + 1 ≤ 2 ^ 52 := by exact_mod_cast size ▸ subnormal
  have positive : 0 < (shown rank).toRatio.value := by
    rw [← mul_pos_iff_of_pos_right unitPos]
    linarith
  have spacingShown : spacing (shown rank).toRatio.value = -1074 := by
    have small : (shown rank).toRatio.value < ((2 : ℕ) : ℚ) ^ (-1021 : ℤ) := by
      refine lt_of_mul_lt_mul_right ?_ unitPos.le
      rw [power]
      linarith
    have log := (Int.lt_zpow_iff_log_lt one_lt_two positive).mp small
    rw [spacing]
    omega
  obtain ⟨n', isNearest', _, eq'⟩ :=
    nearestRank_eq (Ratio.num_pos_of_value_pos positive) (den_toRatio_pos (shown rank))
  rw [spacingShown] at isNearest' eq'
  rw [scale] at isNearest'
  rw [eq', isNearest'.unique isNearestShown, step]
  simp

/-- What is shown of a double that comes from a decimal with six digits reads back as it. -/
theorem nearestRank_shown (num : 0 < r.num) (den : 0 < r.den) (short : HasSixDigits r.value)
    (rounded : nearestRank r = rank) (pos : 0 < rank) :
    nearestRank (shown rank).toRatio = rank := by
  rcases Nat.lt_or_ge rank binadeSize with subnormal | normal
  · exact nearestRank_shown_of_subnormal num den short rounded pos subnormal
  · rw [← rounded]
    refine nearestRank_congr (den_toRatio_pos _) den ?_
    rw [rounded]
    exact value_shown_of_normal num den short rounded normal

end Decimal

end FilmQuery.Number
