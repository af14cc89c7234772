/-
# Scores as shares of an overlap

The items that two lists have in common are those of the intersection of their multisets
(`Score.overlap_eq_card_inter`), so an item counts as often as it stands in both.  In exact
fractions the harmonic mean of the two shares is the overlap against the mean length
(`Score.f1_exact_eq`), whatever is empty.  It is one if and only if the overlap is all of both
lists.

That no score divides by zero is said in an arithmetic in which such a quotient is nothing
(`Arithmetic.checked`): it works every score out to the same fraction.
-/
import FilmQuery.Score
import Mathlib.Algebra.BigOperators.Group.Finset.Basic
import Mathlib.Algebra.Order.BigOperators.Group.Finset
import Mathlib.Algebra.Order.Field.Rat
import Mathlib.Data.Multiset.UnionInter
import Mathlib.Tactic.FieldSimp
import Mathlib.Tactic.Linarith
import Mathlib.Tactic.NormNum
import Mathlib.Tactic.Positivity
import Mathlib.Tactic.Ring

namespace FilmQuery

/-- Exact fractions with nothing for a quotient by zero, and for whatever is worked out from it. -/
def Arithmetic.checked : Arithmetic (Option Rat) where
  quotient m n := if n = 0 then none else some ((m : Rat) / (n : Rat))
  add x y := x.bind fun a => y.map fun b => a + b
  mul x y := x.bind fun a => y.map fun b => a * b
  div x y := x.bind fun a => y.bind fun b => if b = 0 then none else some (a / b)
  isZero x := x == some 0

namespace Arithmetic

@[simp] theorem exact_quotient (m n : Nat) : exact.quotient m n = (m : Rat) / (n : Rat) := rfl

@[simp] theorem exact_add (a b : Rat) : exact.add a b = a + b := rfl

@[simp] theorem exact_mul (a b : Rat) : exact.mul a b = a * b := rfl

@[simp] theorem exact_div (a b : Rat) : exact.div a b = a / b := rfl

@[simp] theorem exact_isZero (a : Rat) : exact.isZero a = true ↔ a = 0 := beq_iff_eq

theorem checked_quotient {n : Nat} (m : Nat) (pos : 0 < n) :
    checked.quotient m n = some (exact.quotient m n) :=
  if_neg pos.ne'

@[simp] theorem checked_add (a b : Rat) : checked.add (some a) (some b) = some (a + b) := rfl

@[simp] theorem checked_mul (a b : Rat) : checked.mul (some a) (some b) = some (a * b) := rfl

theorem checked_div (a : Rat) {b : Rat} (something : b ≠ 0) :
    checked.div (some a) (some b) = some (a / b) :=
  if_neg something

@[simp] theorem checked_isZero (a : Rat) : checked.isZero (some a) = true ↔ a = 0 := by
  simp [checked]

end Arithmetic

namespace Score

variable {α : Type} [DecidableEq α] (predicted expected : List α)

section Overlap

/-- What two lists have in common are the items of the intersection. -/
theorem overlap_eq_card_inter :
    overlap predicted expected =
      ((predicted : Multiset α) ∩ (expected : Multiset α)).card := by
  -- An item that is found is taken out of what is expected, so the induction is for any of it.
  induction predicted generalizing expected with
  | nil => simp [overlap]
  | cons x predicted ih =>
      rw [overlap, ← Multiset.cons_coe]
      split
      next mem =>
        rw [Multiset.cons_inter_of_pos _ (Multiset.mem_coe.mpr mem), Multiset.card_cons,
          Multiset.coe_erase, ih]
      next absent => rw [Multiset.cons_inter_of_neg _ (mt Multiset.mem_coe.mp absent), ih]

/-- Every item counts as often as it stands in both lists. -/
theorem overlap_eq_sum_min :
    overlap predicted expected =
      ∑ x ∈ predicted.toFinset ∪ expected.toFinset,
        min (predicted.count x) (expected.count x) := by
  have inside : ∀ x ∈ (predicted : Multiset α) ∩ (expected : Multiset α),
      x ∈ predicted.toFinset ∪ expected.toFinset := fun x mem =>
    Finset.mem_union_left _
      (List.mem_toFinset.mpr (Multiset.mem_coe.mp (Multiset.mem_inter.mp mem).1))
  rw [overlap_eq_card_inter, ← Multiset.sum_count_eq_card inside]
  exact Finset.sum_congr rfl fun x _ => by
    rw [Multiset.count_inter, Multiset.coe_count, Multiset.coe_count]

theorem overlap_le_left : overlap predicted expected ≤ predicted.length := by
  rw [overlap_eq_card_inter, ← Multiset.coe_card]
  exact Multiset.card_le_card Multiset.inter_le_left

theorem overlap_le_right : overlap predicted expected ≤ expected.length := by
  rw [overlap_eq_card_inter, ← Multiset.coe_card]
  exact Multiset.card_le_card Multiset.inter_le_right

/-- The overlap is all of both lists if and only if they have the same items. -/
theorem overlap_eq_lengths_iff :
    overlap predicted expected = predicted.length ∧ overlap predicted expected = expected.length ↔
      (predicted : Multiset α) = (expected : Multiset α) := by
  rw [overlap_eq_card_inter, ← Multiset.coe_card, ← Multiset.coe_card]
  constructor
  · rintro ⟨left, right⟩
    have ofLeft := Multiset.eq_of_le_of_card_le
      (Multiset.inter_le_left (s := (predicted : Multiset α)) (t := expected)) left.ge
    have ofRight := Multiset.eq_of_le_of_card_le
      (Multiset.inter_le_right (s := (predicted : Multiset α)) (t := expected)) right.ge
    exact ofLeft.symm.trans ofRight
  · intro same
    have whole : (expected : Multiset α) ∩ expected = expected :=
      Multiset.inter_le_left.antisymm (Multiset.le_inter le_rfl le_rfl)
    rw [same, whole]
    exact ⟨rfl, rfl⟩

@[simp] theorem overlap_nil : overlap predicted [] = 0 :=
  Nat.le_zero.mp (overlap_le_right predicted [])

theorem overlap_comm : overlap predicted expected = overlap expected predicted := by
  rw [overlap_eq_card_inter, overlap_eq_card_inter, Multiset.inter_comm]

variable {predicted expected} in
theorem overlap_congr {others gold : List α} (found : predicted.Perm others)
    (wanted : expected.Perm gold) : overlap predicted expected = overlap others gold := by
  rw [overlap_eq_card_inter, overlap_eq_card_inter, Multiset.coe_eq_coe.mpr found,
    Multiset.coe_eq_coe.mpr wanted]

end Overlap

section Exact

@[simp] theorem one_exact : one .exact = 1 := by
  norm_num [one]

@[simp] theorem zero_exact : zero .exact = 0 := by
  norm_num [zero]

theorem precision_exact :
    precision .exact predicted expected =
      if predicted = [] then (if expected = [] then 1 else 0)
      else (overlap predicted expected : Rat) / predicted.length := by
  simp [precision]

theorem coverage_exact :
    coverage .exact predicted expected =
      if expected = [] then 1 else (overlap predicted expected : Rat) / expected.length := by
  simp [coverage]

theorem harmonicMean_exact (p r : Rat) :
    harmonicMean .exact p r = if p + r = 0 then 0 else 2 * p * r / (p + r) := by
  simp [harmonicMean]

theorem exactMatch_exact :
    exactMatch .exact predicted expected = if sameItems predicted expected then 1 else 0 := by
  simp [exactMatch]

/-- The harmonic mean of two shares of one overlap is the overlap against the mean of the wholes. -/
theorem harmonicMean_shares {o m n : Nat} (left : 0 < m) (right : 0 < n) :
    harmonicMean .exact ((o : Rat) / m) ((o : Rat) / n) = 2 * o / (m + n) := by
  have m_pos : (0 : Rat) < m := Nat.cast_pos.mpr left
  have n_pos : (0 : Rat) < n := Nat.cast_pos.mpr right
  rw [harmonicMean_exact]
  rcases Nat.eq_zero_or_pos o with rfl | pos
  · simp
  · have o_pos : (0 : Rat) < o := Nat.cast_pos.mpr pos
    have sum_pos : (0 : Rat) < o / m + o / n := by positivity
    rw [if_neg sum_pos.ne']
    field_simp
    ring

/-- The harmonic mean of precision and coverage, whatever is empty. -/
theorem f1_exact_eq :
    f1 .exact predicted expected =
      if predicted = [] ∧ expected = [] then 1
      else 2 * (overlap predicted expected : Rat) / (predicted.length + expected.length) := by
  -- An empty side has a convention of its own in each score; only two filled lists are divided.
  rw [f1, precision_exact, coverage_exact]
  cases predicted with
  | nil =>
      cases expected with
      | nil => norm_num [harmonicMean_exact]
      | cons => simp [harmonicMean_exact, overlap]
  | cons x predicted =>
      cases expected with
      | nil => simp [harmonicMean_exact]
      | cons y expected =>
          simpa using harmonicMean_shares (o := overlap (x :: predicted) (y :: expected))
            (Nat.succ_pos predicted.length) (Nat.succ_pos expected.length)

/-- A share lies between nothing and all. -/
theorem share_mem_unit {o n : Nat} (le : o ≤ n) : (0 : Rat) ≤ o / n ∧ (o : Rat) / n ≤ 1 :=
  ⟨by positivity, div_le_one_of_le₀ (Nat.cast_le.mpr le) (Nat.cast_nonneg n)⟩

/-- A share is all of a whole if and only if nothing of it is missing. -/
theorem share_eq_one_iff {o n : Nat} (pos : 0 < n) : (o : Rat) / n = 1 ↔ o = n := by
  rw [div_eq_one_iff_eq (Nat.cast_ne_zero.mpr pos.ne'), Nat.cast_inj]

theorem precision_mem_unit :
    0 ≤ precision .exact predicted expected ∧ precision .exact predicted expected ≤ 1 := by
  rw [precision_exact]
  split_ifs
  · norm_num
  · norm_num
  · exact share_mem_unit (overlap_le_left predicted expected)

theorem coverage_mem_unit :
    0 ≤ coverage .exact predicted expected ∧ coverage .exact predicted expected ≤ 1 := by
  rw [coverage_exact]
  split_ifs
  · norm_num
  · exact share_mem_unit (overlap_le_right predicted expected)

theorem f1_mem_unit :
    0 ≤ f1 .exact predicted expected ∧ f1 .exact predicted expected ≤ 1 := by
  rw [f1_exact_eq]
  split_ifs
  · norm_num
  · have le : 2 * overlap predicted expected ≤ predicted.length + expected.length := by
      have left := overlap_le_left predicted expected
      have right := overlap_le_right predicted expected
      omega
    simpa using share_mem_unit le

theorem f1_comm : f1 .exact predicted expected = f1 .exact expected predicted := by
  simp only [f1_exact_eq, overlap_comm predicted expected, and_comm, add_comm]

/-- Two lists have the same items if and only if their multisets are equal. -/
theorem sameItems_iff :
    sameItems predicted expected = true ↔ (predicted : Multiset α) = expected := by
  rw [Multiset.coe_eq_coe, List.perm_iff_count, sameItems, List.all_eq_true]
  constructor
  · intro counted x
    by_cases mem : x ∈ predicted ++ expected
    · exact beq_iff_eq.mp (counted x mem)
    · rw [List.mem_append, not_or] at mem
      rw [List.count_eq_zero.mpr mem.1, List.count_eq_zero.mpr mem.2]
  · exact fun counts x _ => beq_iff_eq.mpr (counts x)

theorem exactMatch_exact_eq_one_iff :
    exactMatch .exact predicted expected = 1 ↔ (predicted : Multiset α) = expected := by
  rw [exactMatch_exact, ← sameItems_iff]
  split <;> simp_all

/-- Both shares are all if and only if the lists have the same items. -/
theorem shares_eq_one_iff :
    precision .exact predicted expected = 1 ∧ coverage .exact predicted expected = 1 ↔
      (predicted : Multiset α) = expected := by
  rw [← overlap_eq_lengths_iff, precision_exact, coverage_exact]
  cases predicted with
  | nil => cases expected <;> simp [overlap]
  | cons x predicted =>
      rw [if_neg (List.cons_ne_nil _ _),
        share_eq_one_iff (List.length_pos_of_mem List.mem_cons_self)]
      cases expected with
      | nil => simp
      | cons y expected =>
          rw [if_neg (List.cons_ne_nil _ _),
            share_eq_one_iff (List.length_pos_of_mem List.mem_cons_self)]

/-- The harmonic mean is one if and only if the overlap is all of both lists. -/
theorem f1_eq_one_iff :
    f1 .exact predicted expected = 1 ↔ (predicted : Multiset α) = expected := by
  rw [f1_exact_eq, ← overlap_eq_lengths_iff]
  split_ifs with empty
  · simp [empty.1, empty.2]
  · have left := overlap_le_left predicted expected
    have right := overlap_le_right predicted expected
    have something : 0 < predicted.length + expected.length := by
      rw [Nat.pos_iff_ne_zero, ne_eq, Nat.add_eq_zero_iff, List.length_eq_zero_iff,
        List.length_eq_zero_iff]
      exact empty
    have share := share_eq_one_iff (o := 2 * overlap predicted expected) something
    push_cast at share
    rw [share]
    omega

end Exact

section Order

variable {β : Type} (arith : Arithmetic β) {predicted expected} {others gold : List α}

theorem precision_congr (found : predicted.Perm others) (wanted : expected.Perm gold) :
    precision arith predicted expected = precision arith others gold := by
  rw [precision, precision, overlap_congr found wanted, found.length_eq, found.isEmpty_eq,
    wanted.isEmpty_eq]

theorem coverage_congr (found : predicted.Perm others) (wanted : expected.Perm gold) :
    coverage arith predicted expected = coverage arith others gold := by
  rw [coverage, coverage, overlap_congr found wanted, wanted.length_eq, wanted.isEmpty_eq]

theorem f1_congr (found : predicted.Perm others) (wanted : expected.Perm gold) :
    f1 arith predicted expected = f1 arith others gold := by
  rw [f1, f1, precision_congr arith found wanted, coverage_congr arith found wanted]

theorem exactMatch_congr (found : predicted.Perm others) (wanted : expected.Perm gold) :
    exactMatch arith predicted expected = exactMatch arith others gold := by
  have same : sameItems predicted expected = sameItems others gold := by
    rw [Bool.eq_iff_iff, sameItems_iff, sameItems_iff, Multiset.coe_eq_coe.mpr found,
      Multiset.coe_eq_coe.mpr wanted]
  rw [exactMatch, exactMatch, same]

end Order

section Checked

@[simp] theorem one_checked : one .checked = some 1 := by
  rw [one, Arithmetic.checked_quotient 1 Nat.one_pos, ← one, one_exact]

@[simp] theorem zero_checked : zero .checked = some 0 := by
  rw [zero, Arithmetic.checked_quotient 0 Nat.one_pos, ← zero, zero_exact]

theorem precision_checked :
    precision .checked predicted expected = some (precision .exact predicted expected) := by
  unfold precision
  split_ifs with none
  · rw [one_checked, one_exact]
  · rw [zero_checked, zero_exact]
  · exact Arithmetic.checked_quotient _ (List.length_pos_iff.mpr (mt List.isEmpty_iff.mpr none))

theorem coverage_checked :
    coverage .checked predicted expected = some (coverage .exact predicted expected) := by
  unfold coverage
  split_ifs with none
  · rw [one_checked, one_exact]
  · exact Arithmetic.checked_quotient _ (List.length_pos_iff.mpr (mt List.isEmpty_iff.mpr none))

/-- The sum that a harmonic mean divides by was seen not to be zero. -/
theorem harmonicMean_checked (p r : Rat) :
    harmonicMean .checked (some p) (some r) = some (harmonicMean .exact p r) := by
  have two : Arithmetic.checked.quotient 2 1 = some 2 := by
    rw [Arithmetic.checked_quotient 2 Nat.one_pos]
    norm_num
  rw [harmonicMean, harmonicMean_exact, two]
  by_cases nothing : p + r = 0
  · simp [nothing]
  · simp [nothing, Arithmetic.checked_div _ nothing]

theorem f1_checked :
    f1 .checked predicted expected = some (f1 .exact predicted expected) := by
  rw [f1, precision_checked, coverage_checked, harmonicMean_checked, f1]

end Checked

/-- The scores of two lists in exact fractions are those of their multisets, with as many items
shared as the smaller multiplicities add up to.  No score divides by zero, and all lie between zero
and one.  The harmonic mean is twice the shared items against all items, and one if there are none
at all, so the two lists may be exchanged; and neither list's order matters to any score.  An exact
match is scored one, like the harmonic mean and like both shares, for equal multisets and for no
others, which it scores zero. -/
theorem scores_eq_dice :
    overlap predicted expected = (∑ x ∈ predicted.toFinset ∪ expected.toFinset,
      min (predicted.count x) (expected.count x)) ∧
    let p := precision .exact predicted expected
    let r := coverage .exact predicted expected
    let f := f1 .exact predicted expected
    let m := exactMatch .exact predicted expected
    (precision .checked predicted expected = some p ∧
        coverage .checked predicted expected = some r ∧
        f1 .checked predicted expected = some f) ∧
      ((0 ≤ p ∧ p ≤ 1) ∧ (0 ≤ r ∧ r ≤ 1) ∧ (0 ≤ f ∧ f ≤ 1)) ∧
      f = (if predicted = [] ∧ expected = [] then 1
        else 2 * (overlap predicted expected : Rat) / (predicted.length + expected.length)) ∧
      f = f1 .exact expected predicted ∧
      (∀ others gold : List α, predicted.Perm others → expected.Perm gold →
        precision .exact others gold = p ∧ coverage .exact others gold = r ∧
          f1 .exact others gold = f ∧ exactMatch .exact others gold = m) ∧
      (m = 1 ↔ f = 1) ∧ (f = 1 ↔ p = 1 ∧ r = 1) ∧
      (p = 1 ∧ r = 1 ↔ (predicted : Multiset α) = expected) ∧
      (m ≠ 1 → m = 0) := by
  refine ⟨overlap_eq_sum_min predicted expected, ?_⟩
  intro p r f m
  refine ⟨⟨precision_checked _ _, coverage_checked _ _, f1_checked _ _⟩,
    ⟨precision_mem_unit _ _, coverage_mem_unit _ _, f1_mem_unit _ _⟩, f1_exact_eq _ _,
    f1_comm _ _, fun others gold found wanted => ?_, ?_, ?_, shares_eq_one_iff _ _,
    fun missed => ?_⟩
  · exact ⟨(precision_congr _ found wanted).symm, (coverage_congr _ found wanted).symm,
      (f1_congr _ found wanted).symm, (exactMatch_congr _ found wanted).symm⟩
  · exact (exactMatch_exact_eq_one_iff _ _).trans (f1_eq_one_iff _ _).symm
  · exact (f1_eq_one_iff _ _).trans (shares_eq_one_iff _ _).symm
  · change exactMatch .exact predicted expected = 0
    rw [exactMatch_exact, if_neg]
    exact fun same => missed ((exactMatch_exact_eq_one_iff _ _).mpr
      ((sameItems_iff _ _).mp same))

/-- What is predicted twice and expected once is shared once, in whatever order the lists are. -/
theorem scores_eq_dice_repeated :
    let predicted := ["Movies", "Movies", "Genre: war"]
    let others := ["Movies", "Genre: war", "Movies"]
    let expected := ["Since: 2020", "Movies"]
    let gold := ["Movies", "Since: 2020"]
    predicted.Perm others ∧ expected.Perm gold ∧ f1 .exact others gold = 2 / 5 := by
  intro predicted others expected gold
  have found : predicted.Perm others := by decide
  have wanted : expected.Perm gold := by decide
  obtain ⟨counted, _, _, harmonic, _, unordered, _⟩ := scores_eq_dice predicted expected
  have shared : ∑ x ∈ predicted.toFinset ∪ expected.toFinset,
      min (predicted.count x) (expected.count x) = 1 := by decide
  refine ⟨found, wanted, ?_⟩
  rw [(unordered others gold found wanted).2.2.1, harmonic, counted, shared, if_neg (by decide)]
  norm_num [predicted, expected]

end Score

end FilmQuery
