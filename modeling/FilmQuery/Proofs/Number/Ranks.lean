/-
# Ranks and their values

The doubles of one spacing are the multiples of a power of two; `step` numbers them, and the values
of the ranks are read off their steps (`rankValue_step`).  Rounding goes to the nearest step, so it
is monotone (`nearestRank_mono`), keeps the value of every rank (`nearestRank_rankValue`), and is
off by at most half a spacing (`nearestRank_near`).
-/
import FilmQuery.Number.Binary64
import FilmQuery.Proofs.Number.Rational

namespace FilmQuery.Number.Binary64

/-- The value of the double of a rank. -/
def rankValue (rank : ℕ) : ℚ := (magnitude rank).value

/-- The rank of the double `n * 2 ^ s`. -/
def step (s : ℤ) (n : ℕ) : ℕ := n + (s + 1074).toNat * binadeSize

/-- What can be said of the spacing and of the multiple that give a double: above the smallest
spacing the first half of the multiples belongs to smaller spacings. -/
structure IsStep (s : ℤ) (n : ℕ) : Prop where
  smallest : -1074 ≤ s
  most : n ≤ 2 ^ 53
  least : s = -1074 ∨ 2 ^ 52 ≤ n

/-- The exponent of the spacing of the doubles at a positive number. -/
def spacing (x : ℚ) : ℤ := max (Int.log 2 x - 52) (-1074)

theorem binadeSize_eq : binadeSize = 2 ^ 52 := rfl

section Steps

variable {s t : ℤ} {m n : ℕ}

theorem den_magnitude_pos (rank : ℕ) : 0 < (magnitude rank).den :=
  Ratio.den_scale_pos Nat.one_pos Nat.two_pos _

theorem rankValue_eq (rank : ℕ) :
    rankValue rank =
      (if rank / binadeSize = 0 then rank else binadeSize + rank % binadeSize : ℕ) *
        (2 : ℚ) ^ (((max (rank / binadeSize) 1 : ℕ) : ℤ) - 1075) := by
  rw [rankValue, magnitude, Ratio.value_scale Nat.two_pos, Ratio.value_ofNat]
  rfl

theorem rankValue_step (isStep : IsStep s n) : rankValue (step s n) = n * (2 : ℚ) ^ s := by
  have smallest := isStep.smallest
  obtain ⟨k, rfl⟩ : ∃ k : ℕ, s = (k : ℤ) - 1074 := ⟨(s + 1074).toNat, by omega⟩
  have least := isStep.least
  have most := isStep.most
  have size := binadeSize_eq
  have index : ((k : ℤ) - 1074 + 1074).toNat = k := by omega
  have exponent (j : ℕ) (i : ℤ) (le : 1 ≤ j) (eq : (j : ℤ) = i + 1075) :
      ((max j 1 : ℕ) : ℤ) - 1075 = i := by omega
  rw [step, index, rankValue_eq]
  rcases Nat.lt_or_ge n binadeSize with small | large
  · have here : k = 0 := by omega
    rw [here, Nat.zero_mul, Nat.add_zero, Nat.div_eq_of_lt small, if_pos rfl]
    rfl
  · rcases Nat.lt_or_ge n (2 * binadeSize) with within | top
    · have binade : (n + k * binadeSize) / binadeSize = k + 1 := by
        rw [Nat.add_mul_div_right _ _ (by omega),
          Nat.div_eq_of_lt_le (k := 1) (by omega) (by omega)]
        omega
      have rest : (n + k * binadeSize) % binadeSize = n - binadeSize := by
        rw [Nat.add_mul_mod_self_right, Nat.mod_eq_sub_mod large, Nat.mod_eq_of_lt (by omega)]
      rw [binade, rest, if_neg (Nat.succ_ne_zero k),
        exponent _ ((k : ℤ) - 1074) (Nat.succ_pos k) (by push_cast; ring),
        Nat.add_sub_cancel' large]
    · -- The last multiple of one spacing is the first one of the next.
      have last : n = 2 * binadeSize := by omega
      have binade : (n + k * binadeSize) / binadeSize = k + 2 := by
        rw [last, ← Nat.add_mul, Nat.mul_div_cancel _ (by omega)]
        omega
      have rest : (n + k * binadeSize) % binadeSize = 0 := by
        rw [last, ← Nat.add_mul, Nat.mul_mod_left]
      rw [binade, rest, if_neg (Nat.succ_ne_zero _),
        exponent _ ((k : ℤ) - 1074 + 1) (by omega) (by push_cast; ring), last,
        zpow_add_one₀ two_ne_zero]
      push_cast
      ring

/-- Steps are ordered by spacing first. -/
theorem step_le_step (first : IsStep s m) (second : IsStep t n)
    (le : s < t ∨ s = t ∧ m ≤ n) : step s m ≤ step t n := by
  have size := binadeSize_eq
  have smallest := first.smallest
  unfold step
  rcases le with lt | ⟨rfl, le⟩
  · have least := second.least.resolve_left (by omega)
    have most := first.most
    have up : (s + 1074).toNat + 1 ≤ (t + 1074).toNat := by omega
    have mul := Nat.mul_le_mul_right binadeSize up
    rw [Nat.add_mul, Nat.one_mul] at mul
    omega
  · omega

/-- Every rank is that of a step, and not of the last one of its spacing. -/
theorem exists_step (rank : ℕ) : ∃ s n, IsStep s n ∧ n < 2 ^ 53 ∧ step s n = rank := by
  have size := binadeSize_eq
  rcases Nat.lt_or_ge rank binadeSize with small | large
  · exact ⟨-1074, rank, ⟨le_rfl, by omega, .inl rfl⟩, by omega, by simp [step]⟩
  · have positive : 1 ≤ rank / binadeSize := Nat.one_le_div_iff (by omega) |>.mpr large
    have rest : rank % binadeSize < binadeSize := Nat.mod_lt _ (by omega)
    refine ⟨(rank / binadeSize : ℕ) - 1075, binadeSize + rank % binadeSize,
      ⟨by omega, by omega, .inr (by omega)⟩, by omega, ?_⟩
    have index : (((rank / binadeSize : ℕ) : ℤ) - 1075 + 1074).toNat = rank / binadeSize - 1 := by
      omega
    have parts := Nat.div_add_mod rank binadeSize
    obtain ⟨k, binade⟩ : ∃ k, rank / binadeSize = k + 1 := ⟨_, (Nat.sub_add_cancel positive).symm⟩
    rw [step, index]
    rw [binade, Nat.mul_add, Nat.mul_comm] at parts
    rw [binade, Nat.add_sub_cancel]
    omega

end Steps

section Rounding

variable {x y : ℚ} {n : ℕ}

theorem smallest_le_spacing (x : ℚ) : -1074 ≤ spacing x := le_max_right _ _

theorem spacing_mono (pos : 0 < x) (le : x ≤ y) : spacing x ≤ spacing y :=
  max_le_max (sub_le_sub_right (Int.log_mono_right pos le) _) le_rfl

/-- A number lies below the last multiple of its spacing. -/
theorem lt_of_spacing (x : ℚ) : x * (2 : ℚ) ^ (-spacing x) < 2 ^ 53 := by
  have high := Int.lt_zpow_succ_log_self (b := 2) one_lt_two x
  have le : Int.log 2 x - 52 ≤ spacing x := le_max_left _ _
  have wide : ((2 : ℕ) : ℚ) ^ (Int.log 2 x + 1) ≤ (2 : ℚ) ^ (53 + spacing x) :=
    zpow_le_zpow_right₀ one_le_two (by omega)
  rw [zpow_neg, ← div_eq_mul_inv, div_lt_iff₀ (zpow_pos two_pos _)]
  calc
    x < (2 : ℚ) ^ (53 + spacing x) := high.trans_le wide
    _ = 2 ^ 53 * (2 : ℚ) ^ spacing x := by
      rw [zpow_add₀ two_ne_zero]
      norm_cast

/-- Above the smallest spacing a number does not lie in the first half of the multiples. -/
theorem le_of_spacing (pos : 0 < x) (wide : spacing x ≠ -1074) :
    (2 : ℚ) ^ 52 ≤ x * (2 : ℚ) ^ (-spacing x) := by
  have low := Int.zpow_log_le_self (b := 2) one_lt_two pos
  have eq : spacing x = Int.log 2 x - 52 := (max_choice _ _).resolve_right wide
  rw [zpow_neg, ← div_eq_mul_inv, le_div_iff₀ (zpow_pos two_pos _)]
  calc
    2 ^ 52 * (2 : ℚ) ^ spacing x = (2 : ℚ) ^ (52 + spacing x) := by
      rw [zpow_add₀ two_ne_zero]
      norm_cast
    _ = (2 : ℚ) ^ Int.log 2 x := by rw [eq, add_sub_cancel]
    _ ≤ x := low

theorem isStep_of_isNearest (pos : 0 < x) (nearest : IsNearest (x * (2 : ℚ) ^ (-spacing x)) n) :
    IsStep (spacing x) n where
  smallest := smallest_le_spacing x
  most := nearest.mono (.natCast (2 ^ 53)) (by exact_mod_cast (lt_of_spacing x).le)
  least := by
    by_cases wide : spacing x = -1074
    · exact .inl wide
    · exact .inr (IsNearest.mono (.natCast (2 ^ 52)) nearest
        (by exact_mod_cast le_of_spacing pos wide))

/-- Rounding a positive fraction goes to the nearest multiple of the spacing. -/
theorem nearestRank_eq {r : Ratio} (num : 0 < r.num) (den : 0 < r.den) :
    ∃ n, IsNearest (r.value * (2 : ℚ) ^ (-spacing r.value)) n ∧ IsStep (spacing r.value) n ∧
      nearestRank r = step (spacing r.value) n := by
  have nearest : IsNearest (r.value * (2 : ℚ) ^ (-spacing r.value))
      (r.scale 2 (-spacing r.value)).round := by
    have rounded := Ratio.round_isNearest (Ratio.den_scale_pos den Nat.two_pos (-spacing r.value))
    rwa [Ratio.value_scale Nat.two_pos] at rounded
  refine ⟨_, nearest, isStep_of_isNearest (Ratio.value_pos num den) nearest, ?_⟩
  rw [nearestRank, if_neg num.ne', Ratio.floorLog2_eq num den]
  rfl

/-- Rounding is monotone. -/
theorem nearestRank_mono {r r' : Ratio} (den : 0 < r.den) (den' : 0 < r'.den)
    (le : r.value ≤ r'.value) : nearestRank r ≤ nearestRank r' := by
  rcases Nat.eq_zero_or_pos r.num with zero | num
  · rw [nearestRank, if_pos zero]
    exact Nat.zero_le _
  · have pos := Ratio.value_pos num den
    obtain ⟨n, nearest, isStep, eq⟩ := nearestRank_eq num den
    obtain ⟨n', nearest', isStep', eq'⟩ :=
      nearestRank_eq (Ratio.num_pos_of_value_pos (pos.trans_le le)) den'
    rw [eq, eq']
    apply step_le_step isStep isStep'
    rcases (spacing_mono pos le).lt_or_eq with lt | same
    · exact .inl lt
    · refine .inr ⟨same, nearest.mono nearest' ?_⟩
      rw [← same]
      exact mul_le_mul_of_nonneg_right le (zpow_nonneg zero_le_two _)

/-- Rounding looks at nothing but the value. -/
theorem nearestRank_congr {r r' : Ratio} (den : 0 < r.den) (den' : 0 < r'.den)
    (same : r.value = r'.value) : nearestRank r = nearestRank r' :=
  le_antisymm (nearestRank_mono den den' same.le) (nearestRank_mono den' den same.ge)

/-- Rounding is off by at most half a spacing. -/
theorem nearestRank_near {r : Ratio} (num : 0 < r.num) (den : 0 < r.den) :
    |r.value - rankValue (nearestRank r)| ≤ (2 : ℚ) ^ spacing r.value / 2 := by
  obtain ⟨n, nearest, isStep, eq⟩ := nearestRank_eq num den
  have pos : (0 : ℚ) < (2 : ℚ) ^ spacing r.value := zpow_pos two_pos _
  have scaled : r.value - n * (2 : ℚ) ^ spacing r.value =
      (r.value * (2 : ℚ) ^ (-spacing r.value) - n) * (2 : ℚ) ^ spacing r.value := by
    rw [zpow_neg]
    field_simp
  rw [eq, rankValue_step isStep, scaled, abs_mul, abs_of_pos pos]
  have near := mul_le_mul_of_nonneg_right nearest.near pos.le
  linarith

/-- The spacing at a positive double. -/
theorem spacing_step {s : ℤ} (isStep : IsStep s n) (pos : 0 < n) (last : n < 2 ^ 53) :
    spacing (n * (2 : ℚ) ^ s) = s := by
  have posQ : (0 : ℚ) < n * (2 : ℚ) ^ s := by
    have : (0 : ℚ) < n := by exact_mod_cast pos
    exact mul_pos this (zpow_pos two_pos _)
  have high : Int.log 2 ((n : ℚ) * (2 : ℚ) ^ s) < s + 53 := by
    rw [← Int.lt_zpow_iff_log_lt one_lt_two posQ, add_comm s, Nat.cast_ofNat,
      zpow_add₀ two_ne_zero]
    exact mul_lt_mul_of_pos_right (by exact_mod_cast last) (zpow_pos two_pos _)
  have smallest := isStep.smallest
  rcases isStep.least with least | least
  · rw [spacing]
    omega
  · have low : s + 52 ≤ Int.log 2 ((n : ℚ) * (2 : ℚ) ^ s) := by
      rw [← Int.zpow_le_iff_le_log one_lt_two posQ, add_comm s, Nat.cast_ofNat,
        zpow_add₀ two_ne_zero]
      exact mul_le_mul_of_nonneg_right (by exact_mod_cast least) (zpow_nonneg zero_le_two _)
    rw [spacing]
    omega

/-- The value of a rank is rounded to the rank. -/
theorem nearestRank_rankValue {r : Ratio} (den : 0 < r.den) {rank : ℕ}
    (value : r.value = rankValue rank) : nearestRank r = rank := by
  obtain ⟨s, n, isStep, last, rfl⟩ := exists_step rank
  rw [rankValue_step isStep] at value
  rcases Nat.eq_zero_or_pos n with rfl | pos
  · have zero : s = -1074 := isStep.least.resolve_right (by norm_num)
    have num : r.num = 0 := by
      have denQ : (r.den : ℚ) ≠ 0 := by exact_mod_cast den.ne'
      rw [Nat.cast_zero, zero_mul, Ratio.value, div_eq_zero_iff] at value
      exact_mod_cast value.resolve_right denQ
    rw [nearestRank, if_pos num, step, zero]
    rfl
  · have posQ : (0 : ℚ) < n := by exact_mod_cast pos
    have num : 0 < r.num := Ratio.num_pos_of_value_pos (value ▸ mul_pos posQ (zpow_pos two_pos _))
    obtain ⟨n', nearest, _, eq⟩ := nearestRank_eq num den
    rw [value, spacing_step isStep pos last, mul_assoc, ← zpow_add₀ two_ne_zero, add_neg_cancel,
      zpow_zero, mul_one] at nearest
    rw [eq, value, spacing_step isStep pos last, nearest.unique (.natCast n)]

theorem rankValue_pos {rank : ℕ} (pos : 0 < rank) : 0 < rankValue rank := by
  by_contra! le
  have zero : rankValue rank = rankValue 0 := by
    have nonneg : 0 ≤ rankValue rank := by
      rw [rankValue, Ratio.value]
      positivity
    rw [le_antisymm le nonneg, rankValue_eq]
    simp
  have same : nearestRank (magnitude rank) = 0 :=
    nearestRank_rankValue (den_magnitude_pos rank) zero
  rw [nearestRank_rankValue (den_magnitude_pos rank) rfl] at same
  omega

end Rounding

end FilmQuery.Number.Binary64
