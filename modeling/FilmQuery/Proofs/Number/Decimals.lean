/-
# Doubles from decimals

Far outside the range of the doubles a decimal is not worked out, but that makes no difference:
every decimal gives the double nearest to its value (`ofDecimal_eq`).  So equal values give the
same double, and larger values give no smaller ones.
-/
import FilmQuery.Proofs.Number.Significant

namespace FilmQuery.Number

open Binary64

/-- The double that a decimal gives. -/
def Decimal.toBinary64 (d : Decimal) : Binary64 := .ofDecimal false d.coefficient d.exponent

namespace Binary64

variable {r : Ratio} {d d' : Decimal}

/-- The order of a decimal is its logarithm. -/
theorem log_toRatio (pos : 0 < d.coefficient) :
    (log10 d.coefficient : ℤ) + d.exponent = Int.log 10 d.toRatio.value := by
  have unit : (0 : ℚ) < (10 : ℚ) ^ d.exponent := zpow_pos (by norm_num) _
  have posQ : (0 : ℚ) < d.coefficient := by exact_mod_cast pos
  have valuePos : 0 < d.toRatio.value := by
    rw [Decimal.value_toRatio]
    exact mul_pos posQ unit
  rw [Ratio.log10_eq pos]
  apply le_antisymm
  · rw [← Int.zpow_le_iff_le_log (by norm_num) valuePos, Decimal.value_toRatio, Nat.cast_ofNat,
      zpow_add₀ (by norm_num), zpow_natCast]
    exact mul_le_mul_of_nonneg_right (by exact_mod_cast Nat.pow_log_le_self 10 pos.ne') unit.le
  · have high : Int.log 10 d.toRatio.value <
        ((Nat.log 10 d.coefficient + 1 : ℕ) : ℤ) + d.exponent := by
      rw [← Int.lt_zpow_iff_log_lt (by norm_num) valuePos, Decimal.value_toRatio, Nat.cast_ofNat,
        zpow_add₀ (by norm_num), zpow_natCast]
      exact mul_lt_mul_of_pos_right
        (by exact_mod_cast Nat.lt_pow_succ_log_self (by norm_num) d.coefficient) unit
    push_cast at high
    omega

theorem rankCount_le_nearestRank (den : 0 < r.den) (large : (10 : ℚ) ^ (311 : ℤ) ≤ r.value) :
    rankCount ≤ nearestRank r := by
  have beyond : rankCount ≤ nearestRank (Decimal.toRatio ⟨1, 311⟩) := by decide +kernel
  refine beyond.trans (nearestRank_mono (Decimal.den_toRatio_pos _) den ?_)
  rwa [Decimal.value_toRatio, Nat.cast_one, one_mul]

theorem nearestRank_eq_zero (den : 0 < r.den) (small : r.value ≤ (10 : ℚ) ^ (-330 : ℤ)) :
    nearestRank r = 0 := by
  obtain ⟨d, value, none⟩ : ∃ d : Decimal, d.toRatio.value = (10 : ℚ) ^ (-330 : ℤ) ∧
      nearestRank d.toRatio = 0 :=
    ⟨⟨1, -330⟩, by rw [Decimal.value_toRatio, Nat.cast_one, one_mul], by decide +kernel⟩
  have le := nearestRank_mono den d.den_toRatio_pos (small.trans value.ge)
  rwa [none, Nat.le_zero] at le

/-- A decimal gives the double nearest to its value. -/
theorem ofDecimal_eq (negative : Bool) (d : Decimal) :
    ofDecimal negative d.coefficient d.exponent = nearest negative d.toRatio := by
  have den := d.den_toRatio_pos
  unfold ofDecimal
  split
  next zero =>
    rw [nearest, nearestRank_eq_zero den]
    rw [Decimal.value_toRatio, zero, Nat.cast_zero, zero_mul]
    exact zpow_nonneg (by norm_num) _
  next nonzero =>
    have pos := Nat.pos_of_ne_zero nonzero
    have posQ : (0 : ℚ) < d.coefficient := by exact_mod_cast pos
    have valuePos : 0 < d.toRatio.value := by
      rw [Decimal.value_toRatio]
      exact mul_pos posQ (zpow_pos (by norm_num) _)
    simp only [log_toRatio pos]
    split
    next large =>
      have beyond := rankCount_le_nearestRank den
        ((Int.zpow_le_iff_le_log (b := 10) (by norm_num) valuePos).mpr large)
      rw [nearest, ofRank, dif_neg (by omega)]
    · split
      next small =>
        have none := nearestRank_eq_zero den
          ((Int.lt_zpow_iff_log_lt (b := 10) (by norm_num) valuePos).mpr small).le
        rw [nearest, none]
      · rfl

/-- Decimals of the same value give the same double. -/
theorem toBinary64_congr (same : d.toRatio.value = d'.toRatio.value) :
    d.toBinary64 = d'.toBinary64 := by
  rw [Decimal.toBinary64, ofDecimal_eq, Decimal.toBinary64, ofDecimal_eq, nearest, nearest,
    nearestRank_congr d.den_toRatio_pos d'.den_toRatio_pos same]

theorem place?_ofRank (rank : ℕ) :
    (ofRank false rank).place? = some ((min rank rankCount : ℕ) : ℤ) := by
  unfold ofRank
  split
  next fits => rw [Nat.min_eq_left (Nat.le_of_lt fits)]; rfl
  next beyond => rw [Nat.min_eq_right (by omega)]; rfl

/-- A larger decimal gives no smaller double. -/
theorem toBinary64_le (le : d.toRatio.value ≤ d'.toRatio.value) :
    d.toBinary64.le d'.toBinary64 = true := by
  have ranks := nearestRank_mono d.den_toRatio_pos d'.den_toRatio_pos le
  rw [Decimal.toBinary64, ofDecimal_eq, Decimal.toBinary64, ofDecimal_eq, Binary64.le, nearest,
    nearest, place?_ofRank, place?_ofRank]
  simp only [decide_eq_true_eq]
  omega

end Binary64

end FilmQuery.Number
