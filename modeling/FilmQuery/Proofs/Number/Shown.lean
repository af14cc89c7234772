/-
# Numbers as they are shown

However a decimal is set out, the parts of the text write its value (`DecimalLayout.writes_text`).
So a rating with no more than six digits is shown by a numeral that gives the rating again
(`exists_parts_ratingText`).
-/
import FilmQuery.Fragment.Label
import FilmQuery.Rule.Extractor
import FilmQuery.Proofs.Number.Reading
import Mathlib.Data.List.TakeWhile

namespace FilmQuery.Number

open Numeral

namespace DecimalLayout

/-- The digits of a decimal without the zeros at the end. -/
def significant (d : Decimal) : List Char :=
  ((decimalDigits d.coefficient).reverse.dropWhile (· == '0')).reverse

variable {d : Decimal}

theorem isRun_decimalDigits (n : ℕ) : IsRun (decimalDigits n) := fun _ mem =>
  Nat.isDigit_of_mem_toDigits (by norm_num) (by norm_num) mem

/-- Only zeros are left away. -/
theorem exists_zeros (d : Decimal) :
    ∃ k, decimalDigits d.coefficient = significant d ++ List.replicate k '0' := by
  have zeros : (decimalDigits d.coefficient).reverse.takeWhile (· == '0') =
      List.replicate ((decimalDigits d.coefficient).reverse.takeWhile (· == '0')).length '0' :=
    List.eq_replicate_iff.mpr
      ⟨rfl, fun c mem => eq_of_beq (List.mem_takeWhile_imp (p := (· == '0')) mem)⟩
  have parts := List.takeWhile_append_dropWhile (p := (· == '0'))
    (l := (decimalDigits d.coefficient).reverse)
  rw [zeros] at parts
  have reversed := congrArg List.reverse parts
  rw [List.reverse_append, List.reverse_reverse, List.reverse_replicate] at reversed
  exact ⟨_, reversed.symm⟩

theorem isRun_significant (d : Decimal) : IsRun (significant d) := fun c mem => by
  obtain ⟨k, zeros⟩ := exists_zeros d
  exact isRun_decimalDigits d.coefficient c (zeros ▸ List.mem_append_left _ mem)

theorem coefficient_eq {k : ℕ}
    (zeros : decimalDigits d.coefficient = significant d ++ List.replicate k '0') :
    d.coefficient = digitsValue (significant d) * 10 ^ k := by
  rw [← digitsValue_decimalDigits d.coefficient, zeros, digitsValue_append,
    digitsValue_replicate_zero, List.length_replicate, Nat.add_zero]

theorem significant_ne_nil (pos : 0 < d.coefficient) : significant d ≠ [] := fun none => by
  obtain ⟨k, zeros⟩ := exists_zeros d
  have value := coefficient_eq zeros
  rw [none, digitsValue, List.foldl_nil, Nat.zero_mul] at value
  omega

theorem isRun_replicate (n : ℕ) : IsRun (List.replicate n '0') := fun c mem => by
  rw [List.eq_of_mem_replicate mem]
  rfl

theorem isRun_append {first second : List Char} (left : IsRun first) (right : IsRun second) :
    IsRun (first ++ second) := fun c mem =>
  (List.mem_append.mp mem).elim (left c) (right c)

/-- The value of parts whose digits are those of a decimal, with zeros before and behind them. -/
theorem value_parts {p : Parts} {k : ℕ} (before behind : ℕ)
    (zeros : decimalDigits d.coefficient = significant d ++ List.replicate k '0')
    (digits : p.whole ++ p.places =
      List.replicate before '0' ++ (significant d ++ List.replicate behind '0'))
    (exponent : Parts.exponentValue p.exponent - (p.places.length : ℤ) + behind = d.exponent + k) :
    p.decimal.toRatio.value = d.toRatio.value := by
  have ten : (10 : ℚ) ≠ 0 := by norm_num
  have coefficient : p.decimal.coefficient = digitsValue (significant d) * 10 ^ behind := by
    rw [Parts.decimal, digits, digitsValue_append, digitsValue_append, digitsValue_replicate_zero,
      digitsValue_replicate_zero, List.length_replicate, Nat.zero_mul, Nat.zero_add, Nat.add_zero]
  rw [Decimal.value_toRatio, Decimal.value_toRatio, coefficient, coefficient_eq zeros]
  push_cast
  rw [mul_assoc, mul_assoc, ← zpow_natCast, ← zpow_natCast, ← zpow_add₀ ten, ← zpow_add₀ ten,
    add_comm (k : ℤ), ← exponent, add_comm (behind : ℤ)]
  rfl

/-- Whether a text is a numeral in parts with the value of a decimal. -/
def Writes (text : List Char) (d : Decimal) : Prop :=
  ∃ p : Parts, p.IsSound ∧ text = p.text ∧ p.decimal.toRatio.value = d.toRatio.value

section Layouts

variable {k : ℕ} {leading : ℤ}

/-- Zeros come first in a number below one. -/
theorem writes_below (pos : 0 < d.coefficient)
    (zeros : decimalDigits d.coefficient = significant d ++ List.replicate k '0')
    (order : leading = d.exponent + ((significant d).length + k - 1 : ℕ)) (below : leading < 0) :
    Writes ('0' :: '.' :: (List.replicate (-leading - 1).toNat '0' ++ significant d)) d := by
  have nonempty := significant_ne_nil pos
  have length : 0 < (significant d).length := List.length_pos_iff.mpr nonempty
  let p : Parts :=
    { whole := ['0'], places := List.replicate (-leading - 1).toNat '0' ++ significant d }
  have sound : p.IsSound :=
    ⟨isRun_replicate 1, by simp [p], isRun_append (isRun_replicate _) (isRun_significant d),
      by simp [p]⟩
  refine ⟨p, sound, ?_, value_parts ((-leading - 1).toNat + 1) 0 zeros ?_ ?_⟩
  · simp [p, Parts.text, Parts.exponentText, nonempty]
  · simp [p, List.replicate_succ]
  · simp only [p, Parts.exponentValue, List.length_append, List.length_replicate]
    omega

/-- Zeros fill up a whole number, and a point and one more zero may follow. -/
theorem writes_whole (pos : 0 < d.coefficient)
    (zeros : decimalDigits d.coefficient = significant d ++ List.replicate k '0')
    (order : leading = d.exponent + ((significant d).length + k - 1 : ℕ)) (above : ¬ leading < 0)
    (short : (significant d).length ≤ leading.toNat + 1) (showsPoint : Bool) :
    Writes (significant d ++ List.replicate (leading.toNat + 1 - (significant d).length) '0' ++
      if showsPoint then ['.', '0'] else []) d := by
  have nonempty := significant_ne_nil pos
  have length : 0 < (significant d).length := List.length_pos_iff.mpr nonempty
  obtain ⟨n, point⟩ : ∃ n, (if showsPoint then ['.', '0'] else []) =
      if List.replicate n '0' = [] then [] else '.' :: List.replicate n '0' := by
    cases showsPoint
    · exact ⟨0, rfl⟩
    · exact ⟨1, rfl⟩
  let p : Parts :=
    { whole := significant d ++ List.replicate (leading.toNat + 1 - (significant d).length) '0'
      places := List.replicate n '0' }
  have sound : p.IsSound :=
    ⟨isRun_append (isRun_significant d) (isRun_replicate _), by simp [p, nonempty],
      isRun_replicate n, by simp [p]⟩
  refine ⟨p, sound, ?_, value_parts 0
    (leading.toNat + 1 - (significant d).length + n) zeros ?_ ?_⟩
  · rw [point, Parts.text, Parts.exponentText, List.append_nil]
  · simp only [p, List.replicate_zero, List.nil_append, List.append_assoc, List.replicate_add]
  · simp only [p, Parts.exponentValue, List.length_replicate]
    omega

/-- A point stands between the digits of a number that is not whole. -/
theorem writes_point
    (zeros : decimalDigits d.coefficient = significant d ++ List.replicate k '0')
    (order : leading = d.exponent + ((significant d).length + k - 1 : ℕ)) (above : ¬ leading < 0)
    (long : ¬ (significant d).length ≤ leading.toNat + 1) :
    Writes ((significant d).take (leading.toNat + 1) ++
      '.' :: (significant d).drop (leading.toNat + 1)) d := by
  have run := isRun_significant d
  have more : (significant d).drop (leading.toNat + 1) ≠ [] := by
    rw [ne_eq, List.drop_eq_nil_iff]
    exact long
  let p : Parts :=
    { whole := (significant d).take (leading.toNat + 1)
      places := (significant d).drop (leading.toNat + 1) }
  have sound : p.IsSound := by
    refine ⟨fun c mem => run c (List.mem_of_mem_take mem), ?_,
      fun c mem => run c (List.mem_of_mem_drop mem), by simp [p]⟩
    rw [← List.length_pos_iff, List.length_take]
    omega
  refine ⟨p, sound, ?_, value_parts 0 0 zeros ?_ ?_⟩
  · simp only [p, Parts.text, Parts.exponentText, if_neg more, List.append_nil]
  · simp [p]
  · simp only [p, Parts.exponentValue, List.length_drop]
    omega

/-- The exponent of a number is that of its first digit. -/
theorem writes_exponent (pos : 0 < d.coefficient)
    (zeros : decimalDigits d.coefficient = significant d ++ List.replicate k '0')
    (order : leading = d.exponent + ((significant d).length + k - 1 : ℕ)) :
    Writes ((significant d).take 1 ++
      (if (significant d).length = 1 then [] else '.' :: (significant d).drop 1) ++
        'e' :: exponentText leading) d := by
  have run := isRun_significant d
  have length : 0 < (significant d).length := List.length_pos_iff.mpr (significant_ne_nil pos)
  obtain ⟨digits, runDigits, nonempty, value, exponent⟩ : ∃ digits, IsRun digits ∧ digits ≠ [] ∧
      digitsValue digits = leading.natAbs ∧
      exponentText leading = (if leading < 0 then '-' else '+') :: digits := by
    have written := digitsValue_decimalDigits leading.natAbs
    have runDigits := isRun_decimalDigits leading.natAbs
    by_cases single : (decimalDigits leading.natAbs).length < 2
    · refine ⟨_, isRun_append (isRun_replicate 1) runDigits, by simp, ?_, ?_⟩
      · rw [digitsValue_append, written, digitsValue_replicate_zero, Nat.zero_mul, Nat.zero_add]
      · simp only [exponentText, if_pos single]
        rfl
    · exact ⟨_, runDigits, Nat.toDigits_ne_nil, written, by simp only [exponentText, if_neg single]⟩
  let p : Parts :=
    { whole := (significant d).take 1
      places := (significant d).drop 1
      exponent := some (decide (leading < 0), digits) }
  have sound : p.IsSound := by
    refine ⟨fun c mem => run c (List.mem_of_mem_take mem), ?_,
      fun c mem => run c (List.mem_of_mem_drop mem), ?_⟩
    · rw [← List.length_pos_iff, List.length_take]
      omega
    · rintro _ ⟨⟩
      exact ⟨runDigits, nonempty⟩
  have single : (significant d).drop 1 = [] ↔ (significant d).length = 1 := by
    rw [List.drop_eq_nil_iff]
    omega
  refine ⟨p, sound, ?_, value_parts 0 0 zeros ?_ ?_⟩
  · simp only [p, Parts.text, Parts.exponentText, single, exponent, decide_eq_true_eq,
      List.append_assoc]
  · simp only [p, List.take_append_drop, List.replicate_zero, List.nil_append, List.append_nil]
  · simp only [p, Parts.exponentValue, List.length_drop, value, decide_eq_true_eq]
    split <;> omega

end Layouts

/-- However a decimal is set out, the parts of the text write its value. -/
theorem writes_text (layout : DecimalLayout) (pos : 0 < d.coefficient) :
    Writes (layout.text d) d := by
  obtain ⟨k, zeros⟩ := exists_zeros d
  obtain ⟨leading, leadingEq⟩ : ∃ leading : ℤ,
      d.exponent + ((decimalDigits d.coefficient).length - 1 : ℕ) = leading := ⟨_, rfl⟩
  have order : leading = d.exponent + ((significant d).length + k - 1 : ℕ) := by
    rw [← leadingEq, zeros, List.length_append, List.length_replicate]
  have folded :
      ((decimalDigits d.coefficient).reverse.dropWhile (· == '0')).reverse = significant d := rfl
  obtain ⟨c, rest, digits⟩ := List.exists_cons_of_ne_nil (significant_ne_nil pos)
  rw [text]
  simp only [if_neg pos.ne', leadingEq, folded, digits]
  simp only [← digits]
  split
  · split
    next below => exact writes_below pos zeros order below
    next above =>
      split
      next short => exact writes_whole pos zeros order above short layout.showsPoint
      next long => exact writes_point zeros order above long
  · exact writes_exponent pos zeros order

end DecimalLayout

namespace Binary64

open DecimalLayout (Writes writes_text isRun_decimalDigits)

/-- Whether a double comes from a decimal with no more than six digits. -/
def IsShort (x : Binary64) : Prop := ∃ d : Decimal, d.coefficient < 10 ^ 6 ∧ x = d.toBinary64

variable {rank : Fin rankCount}

theorem toRat?_finite (rank : Fin rankCount) :
    toRat? (.finite false rank) = some (rankValue rank) := by
  rw [toRat?]
  simp only [Bool.false_eq_true, if_false, Rat.mkRat_eq_div]
  rfl

/-- A whole double is shown by its digits. -/
theorem writes_ratingText_of_integer {n : ℤ} (whole : integer? (.finite false rank) = some n) :
    ∃ d : Decimal, Writes (ratingText (.finite false rank)).toList d ∧
      d.toRatio.value = rankValue rank := by
  rw [ratingText, whole]
  rw [integer?, toRat?_finite, Option.bind_some] at whole
  split at whole
  next integral =>
    have nonneg : 0 ≤ rankValue rank := by
      rw [rankValue, Ratio.value]
      positivity
    have value : ((n.natAbs : ℕ) : ℚ) = rankValue rank := by
      rw [← Rat.num_nonneg, Option.some.inj whole] at nonneg
      have same : ((n : ℤ) : ℚ) = rankValue rank := by
        rw [← Option.some.inj whole]
        exact (Rat.den_eq_one_iff _).mp integral
      rw [← same, Nat.cast_natAbs, abs_of_nonneg nonneg]
    have positive : ¬ n < 0 := by
      rw [← Rat.num_nonneg, Option.some.inj whole] at nonneg
      omega
    refine ⟨⟨n.natAbs, 0⟩, ⟨⟨decimalDigits n.natAbs, [], none⟩, ?_, ?_, ?_⟩, ?_⟩
    · exact ⟨isRun_decimalDigits _, Nat.toDigits_ne_nil, by simp [IsRun], by simp⟩
    · simp [Json.intText, positive, Parts.text, Parts.exponentText]
    · rw [Parts.decimal, List.append_nil, digitsValue_decimalDigits]
      rfl
    · rw [Decimal.value_toRatio, zpow_zero, mul_one, value]
  next => cases whole

/-- Any other double is shown with six digits. -/
theorem writes_ratingText_of_fraction (fraction : integer? (.finite false rank) = none) :
    0 < rank.val ∧ ∃ d : Decimal, Writes (ratingText (.finite false rank)).toList d ∧
      d.toRatio.value = (Decimal.shown rank).toRatio.value := by
  have positive : 0 < rank.val := by
    rw [integer?, toRat?_finite, Option.bind_some] at fraction
    by_contra! zero
    rw [Nat.le_zero.mp zero, rankValue_eq] at fraction
    simp at fraction
  refine ⟨positive, ?_⟩
  have nonzero : rank.val ≠ 0 := positive.ne'
  obtain ⟨u, exponent, isNearest, low, _⟩ := Decimal.shown_spec positive
  have least : 0 < (Decimal.shown rank).coefficient := by
    have many : 10 ^ 5 ≤ (Decimal.shown rank).coefficient := by
      refine IsNearest.mono (.natCast (10 ^ 5)) isNearest ?_
      rw [zpow_neg, ← div_eq_mul_inv, le_div_iff₀ (zpow_pos (by norm_num) u)]
      exact_mod_cast low
    omega
  rw [ratingText, fraction]
  simp only [significantText, textWith, String.toList_ofList, Bool.false_eq_true, if_false,
    if_neg nonzero]
  split
  next full =>
    refine ⟨_, writes_text _ Nat.one_pos, ?_⟩
    have power : (Decimal.shown rank).coefficient = 10 ^ 6 := full
    rw [Decimal.value_toRatio, Decimal.value_toRatio, power, Nat.cast_one, one_mul,
      zpow_add₀ (by norm_num), mul_comm]
    rfl
  next => exact ⟨_, writes_text _ least, rfl⟩

/-- A rating with no more than six digits is shown by the parts of a decimal that gives it. -/
theorem exists_parts_ratingText {x : Binary64} (scaled : Extractor.isOnScale x = true)
    (short : x.IsShort) :
    ∃ p : Parts, p.IsSound ∧ (ratingText x).toList = p.text ∧ p.decimal.toBinary64 = x := by
  obtain ⟨d, small, rfl⟩ := short
  have given : d.toBinary64 = ofRank false (nearestRank d.toRatio) := ofDecimal_eq false d
  by_cases fits : nearestRank d.toRatio < rankCount
  · rw [ofRank, dif_pos fits] at given
    have readsBack {e : Decimal} (writes : Writes (ratingText d.toBinary64).toList e)
        (same : nearestRank e.toRatio = nearestRank d.toRatio) :
        ∃ p : Parts, p.IsSound ∧ (ratingText d.toBinary64).toList = p.text ∧
          p.decimal.toBinary64 = d.toBinary64 := by
      obtain ⟨p, sound, text, value⟩ := writes
      refine ⟨p, sound, text, ?_⟩
      rw [toBinary64_congr value, given, Decimal.toBinary64, ofDecimal_eq, nearest, same, ofRank,
        dif_pos fits]
    cases whole : integer? (.finite false ⟨nearestRank d.toRatio, fits⟩) with
    | some n =>
        obtain ⟨e, writes, value⟩ := writes_ratingText_of_integer whole
        rw [← given] at writes
        exact readsBack writes (nearestRank_rankValue e.den_toRatio_pos value)
    | none =>
        obtain ⟨positive, e, writes, value⟩ := writes_ratingText_of_fraction whole
        rw [← given] at writes
        refine readsBack writes ?_
        rw [nearestRank_congr e.den_toRatio_pos (Decimal.den_toRatio_pos _) value]
        have num : 0 < d.toRatio.num := by
          by_contra! none
          have zero : nearestRank d.toRatio = 0 := by
            rw [nearestRank, if_pos (Nat.le_zero.mp none)]
          exact absurd zero positive.ne'
        exact Decimal.nearestRank_shown num d.den_toRatio_pos
          ⟨_, small, _, d.value_toRatio⟩ rfl positive
  · rw [given, ofRank, dif_neg fits] at scaled
    exact absurd scaled (by decide)

end Binary64

end FilmQuery.Number
