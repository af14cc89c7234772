/-
# The shortest text reads back

The digits of the shortest text are looked for among decimals that read back as the double, and
where no seventeen digits do, every digit is written, which is the value itself
(`nearestRank_shortest`).  So the text of a finite double is a numeral of parts that gives the
double (`exists_parts_shortestText`).  It is marked as a fraction, by a point or by an exponent, and
no digit comes before a zero in front.
-/
import FilmQuery.Proofs.Number.Shown
import Mathlib.Data.Nat.Cast.Field
import Mathlib.Tactic.IntervalCases

namespace FilmQuery.Number

open Numeral Binary64

theorem roundDiv_eq_or (num den : ℕ) :
    roundDiv num den = num / den ∨ roundDiv num den = num / den + 1 := by
  simp only [roundDiv]
  split
  · exact .inl rfl
  · split
    · exact .inr rfl
    · rcases Nat.mod_two_eq_zero_or_one (num / den) with even | odd
      · exact .inl (by rw [even, Nat.add_zero])
      · exact .inr (by rw [odd])

namespace Decimal

variable {rank digits : ℕ} {d : Decimal}

/-- What is found reads back, whichever of the two neighbours it is. -/
theorem nearestRank_of_readingBack? (found : readingBack? rank digits = some d) :
    nearestRank d.toRatio = rank := by
  simp only [readingBack?] at found
  split at found
  next below above =>
    rcases roundDiv_eq_or _ _ with low | high
    · rw [Ratio.round, low] at found
      cases found
      exact eq_of_beq below
    · rw [Ratio.round, high] at found
      cases found
      exact eq_of_beq above
  next below _ =>
    cases found
    exact eq_of_beq below
  next _ above =>
    cases found
    exact eq_of_beq above
  next => cases found

theorem exists_den_magnitude (rank : ℕ) : ∃ k, (magnitude rank).den = 2 ^ k := by
  simp only [magnitude, Ratio.scale]
  split
  · exact ⟨0, rfl⟩
  · exact ⟨_, Nat.one_mul _⟩

/-- Every digit of a double is its value. -/
theorem value_expansion (rank : ℕ) : (expansion rank).toRatio.value = rankValue rank := by
  obtain ⟨k, den⟩ := exists_den_magnitude rank
  have ten : (10 : ℚ) ≠ 0 := by norm_num
  have divides : 2 ^ k ∣ (magnitude rank).num * 10 ^ k :=
    Dvd.dvd.mul_left (pow_dvd_pow_of_dvd (by norm_num) k) _
  have whole : ((magnitude rank).num * 10 ^ k / 2 ^ k : ℕ) =
      ((magnitude rank).num : ℚ) * 10 ^ k / 2 ^ k := by
    rw [Nat.cast_div divides (by positivity)]
    push_cast
    rfl
  have given : expansion rank = ⟨(magnitude rank).num * 10 ^ k / 2 ^ k, -(k : ℤ)⟩ := by
    simp only [expansion, den, Nat.log2_two_pow]
    rfl
  rw [given, value_toRatio, whole, rankValue, Ratio.value, den, zpow_neg, zpow_natCast]
  push_cast
  field_simp

/-- The decimal with the fewest digits reads back. -/
theorem nearestRank_shortest (rank : ℕ) : nearestRank (shortest rank).toRatio = rank := by
  unfold shortest
  cases found : (List.range 17).findSome? fun n => readingBack? rank (n + 1) with
  | some d =>
      obtain ⟨n, _, here⟩ := List.exists_of_findSome?_eq_some found
      exact nearestRank_of_readingBack? here
  | none => exact nearestRank_rankValue (den_toRatio_pos _) (value_expansion rank)

theorem coefficient_shortest_pos (pos : 0 < rank) : 0 < (shortest rank).coefficient := by
  by_contra! none
  have value : (shortest rank).toRatio.value = rankValue 0 := by
    rw [value_toRatio, Nat.le_zero.mp none, rankValue_eq]
    simp
  have zero := nearestRank_rankValue (den_toRatio_pos _) value
  rw [nearestRank_shortest] at zero
  omega

end Decimal

namespace Numeral

theorem digitsValue_lt {digits : List Char} (run : IsRun digits) :
    digitsValue digits < 10 ^ digits.length := by
  induction digits using List.reverseRecOn with
  | nil => exact Nat.one_pos
  | append_singleton digits c ih =>
      obtain ⟨n, small, rfl⟩ := exists_of_isDigit (run c (by simp))
      have before := ih fun c mem => run c (List.mem_append_left _ mem)
      have last : digitsValue [Char.ofNat (48 + n)] = n := by
        interval_cases n <;> rfl
      rw [digitsValue_append, last, List.length_append, List.length_singleton, pow_add]
      omega

/-- The digits of a positive number do not begin with a zero. -/
theorem head?_decimalDigits {n : ℕ} (pos : 0 < n) : (decimalDigits n).head? ≠ some '0' := by
  intro zero
  obtain ⟨rest, digits⟩ := List.head?_eq_some_iff.mp zero
  have run : IsRun rest := fun c mem =>
    DecimalLayout.isRun_decimalDigits n c (digits ▸ List.mem_cons_of_mem _ mem)
  have value : digitsValue rest = n := by
    rw [← digitsValue_decimalDigits n, digits, ← List.singleton_append, digitsValue_append]
    simp [digitsValue]
  have small : n < 10 ^ rest.length := value ▸ digitsValue_lt run
  have some : 0 < rest.length := by
    by_contra! none
    rw [Nat.le_zero.mp none] at small
    omega
  have short := (Nat.length_toDigits_le_iff (by norm_num) some).mpr small
  have long : (Nat.toDigits 10 n).length = rest.length + 1 := congrArg List.length digits
  omega

/-- Whether a numeral is written as fractions are: it is marked by a point or by an exponent, and a
zero in front is the only digit before the mark. -/
structure Parts.IsFraction (p : Parts) : Prop extends p.IsSound where
  lead : p.whole = ['0'] ∨ p.whole.head? ≠ some '0'
  mark : p.places ≠ [] ∨ p.exponent ≠ none

end Numeral

namespace DecimalLayout

variable {d : Decimal}

theorem head?_significant (pos : 0 < d.coefficient) : (significant d).head? ≠ some '0' := by
  obtain ⟨k, zeros⟩ := exists_zeros d
  have head := head?_decimalDigits pos
  rwa [zeros, List.head?_append_of_ne_nil _ (significant_ne_nil pos)] at head

/-- How a text of a decimal begins, and what marks it as a fraction. -/
theorem text_marks (layout : DecimalLayout) (showsPoint : layout.showsPoint = true)
    (pos : 0 < d.coefficient) :
    ((layout.text d).head? ≠ some '0' ∨ ∃ rest, layout.text d = '0' :: '.' :: rest) ∧
      ('.' ∈ layout.text d ∨ 'e' ∈ layout.text d) := by
  have head := head?_significant pos
  obtain ⟨c, rest, digits⟩ := List.exists_cons_of_ne_nil (significant_ne_nil pos)
  have folded :
      ((decimalDigits d.coefficient).reverse.dropWhile (· == '0')).reverse = significant d := rfl
  rw [digits, List.head?_cons] at head
  rw [text]
  simp only [if_neg pos.ne', folded, digits, showsPoint, if_true]
  split
  · split
    · exact ⟨.inr ⟨_, rfl⟩, .inl (by simp)⟩
    · split
      · exact ⟨.inl head, .inl (by simp)⟩
      · exact ⟨.inl head, .inl (by simp)⟩
  · exact ⟨.inl head, .inr (by simp)⟩

/-- A positive decimal is set out as a fraction with its value. -/
theorem exists_isFraction (layout : DecimalLayout) (showsPoint : layout.showsPoint = true)
    (pos : 0 < d.coefficient) :
    ∃ p : Parts, p.IsFraction ∧ layout.text d = p.text ∧
      p.decimal.toRatio.value = d.toRatio.value := by
  obtain ⟨p, sound, text, value⟩ := writes_text layout pos
  obtain ⟨begins, marked⟩ := text_marks layout showsPoint pos
  rw [text] at begins marked
  refine ⟨p, ⟨sound, ?_, ?_⟩, text, value⟩
  · obtain ⟨c, digits, whole⟩ := List.exists_cons_of_ne_nil sound.whole_ne_nil
    rw [whole]
    rcases begins with other | ⟨rest, zero⟩
    · rw [Parts.text, whole] at other
      exact .inr other
    · rw [Parts.text, whole, List.cons_append, List.cons_eq_cons] at zero
      obtain ⟨rfl, behind⟩ := zero
      rcases digits with _ | ⟨c, digits⟩
      · exact .inl rfl
      · have point : c = '.' := (List.cons.inj behind).1
        have digit := sound.whole c (whole ▸ by simp)
        rw [point] at digit
        cases digit
  · by_contra! plain
    have digit (c : Char) (mem : c ∈ p.text) : c.isDigit = true := by
      rw [Parts.text, if_pos plain.1, plain.2] at mem
      exact sound.whole c (by simpa [Parts.exponentText] using mem)
    rcases marked with point | exponent
    · cases digit _ point
    · cases digit _ exponent

end DecimalLayout

namespace Binary64

open DecimalLayout (isRun_replicate)

/-- The magnitude of a finite double is written as a fraction that gives the double, whichever sign
it has. -/
theorem exists_parts_shortestText (rank : Fin rankCount) :
    ∃ p : Parts, p.IsFraction ∧
      shortestLayout.text (if rank.val = 0 then ⟨0, 0⟩ else Decimal.shortest rank) = p.text ∧
      ∀ negative, ofDecimal negative p.decimal.coefficient p.decimal.exponent =
        .finite negative rank := by
  by_cases zero : rank.val = 0
  · refine ⟨⟨['0'], ['0'], none⟩,
      ⟨⟨isRun_replicate 1, by decide, isRun_replicate 1, by simp⟩, .inl rfl, .inl (by decide)⟩, ?_,
      fun negative => ?_⟩
    · rw [if_pos zero]
      decide
    · have first : (⟨0, by decide⟩ : Fin rankCount) = rank := Fin.ext zero.symm
      rw [← first]
      rfl
  · have pos := Decimal.coefficient_shortest_pos (Nat.pos_of_ne_zero zero)
    obtain ⟨p, fraction, text, value⟩ := DecimalLayout.exists_isFraction shortestLayout rfl pos
    refine ⟨p, fraction, ?_, fun negative => ?_⟩
    · rw [if_neg zero, text]
    · rw [ofDecimal_eq, nearest, nearestRank_congr (Decimal.den_toRatio_pos _)
        (Decimal.den_toRatio_pos _) value, Decimal.nearestRank_shortest, ofRank, dif_pos rank.isLt]

end Binary64

end FilmQuery.Number
