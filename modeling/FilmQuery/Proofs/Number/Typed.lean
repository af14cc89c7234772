/-
# Numerals as they are typed

Ratings are typed with digits of any script, perhaps with a point among them.  Such a numeral
writes a decimal (`Typed`) and is read as the double of that decimal (`real?_of_typed`).  A run of
digits that is not too long is also read as a whole number (`integer?_eq_numberOf`).  The order of
their code points is the order of these numbers, as long as two runs of one length part at digits of
one script (`lt_iff_numberOf_lt`).
-/
import FilmQuery.Proofs.Number.Reading
import FilmQuery.Proofs.Text.Separator

namespace FilmQuery.Number.Numeral

open FilmQuery.Text

/-- The number that some digits write, whatever their script. -/
def numberOf (digits : List Char) : ℕ :=
  digits.foldl (fun value c => 10 * value + (digitValue? c).getD 0) 0

/-- Digits of any script, and at least one of them. -/
structure IsDigits (text : List Char) : Prop where
  nonempty : text ≠ []
  digit : ∀ c ∈ text, isDigit c = true

/-- A numeral as it is typed, digits with or without a point among them, and the decimal that it
writes. -/
inductive Typed : List Char → Decimal → Prop
  | whole {digits : List Char} (run : IsDigits digits) : Typed digits ⟨numberOf digits, 0⟩
  | point {digits places : List Char} (run : IsDigits digits) (more : IsDigits places) :
    Typed (digits ++ '.' :: places) ⟨numberOf (digits ++ places), -(places.length : ℤ)⟩

/-- A digit of any script has a value, and its plain form is the Latin digit of that value. -/
theorem exists_plain {c : Char} (digit : isDigit c = true) :
    ∃ value < 10, digitValue? c = some value ∧ plain c = Char.ofNat (48 + value) := by
  obtain ⟨value, valueEq⟩ := Option.isSome_iff_exists.mp digit
  obtain ⟨least, found, rfl⟩ := Option.map_eq_some_iff.mp valueEq
  have within := List.find?_some found
  simp only [Bool.and_eq_true, decide_eq_true_eq] at within
  refine ⟨c.toNat - least, by omega, valueEq, ?_⟩
  unfold plain
  split
  next =>
    -- Below 127 there is one script with digits.
    have lowest : ∀ start ∈ digitZeros, start < 127 → start = 48 := by decide
    have latin := lowest least (List.mem_of_find?_eq_some found) (by omega)
    rw [← latin, Nat.add_sub_cancel' within.1, Char.ofNat_toNat]
  next =>
    rw [isBlank_eq_false_of_isDigit digit, if_neg Bool.false_ne_true, valueEq]

theorem isRun_map_plain {digits : List Char} (run : ∀ c ∈ digits, isDigit c = true) :
    IsRun (digits.map plain) := by
  intro d mem
  obtain ⟨c, inDigits, rfl⟩ := List.mem_map.mp mem
  obtain ⟨value, small, _, plainly⟩ := exists_plain (run c inDigits)
  have latin : ∀ n < 10, (Char.ofNat (48 + n)).isDigit = true := by decide
  rw [plainly]
  exact latin value small

theorem digitsValue_map_plain {digits : List Char} (run : ∀ c ∈ digits, isDigit c = true) :
    digitsValue (digits.map plain) = numberOf digits := by
  induction digits using List.reverseRecOn with
  | nil => rfl
  | append_singleton digits c ih =>
      obtain ⟨before, last⟩ := List.forall_mem_append.mp run
      obtain ⟨value, small, valueEq, plainly⟩ := exists_plain (last c (List.mem_singleton_self c))
      have latin : ∀ n < 10, (Char.ofNat (48 + n)).toNat - 48 = n := by decide
      have here := ih before
      simp only [digitsValue, numberOf, List.map_append, List.map_cons, List.map_nil,
        List.foldl_append, List.foldl_cons, List.foldl_nil] at here ⊢
      rw [here, plainly, latin value small, valueEq, Option.getD_some]

/-- A numeral as it is typed reads as the double of the decimal that it writes. -/
theorem real?_of_typed {text : List Char} {d : Decimal} (typed : Typed text d) :
    real? text = some d.toBinary64 := by
  cases typed with
  | whole run =>
      have sound : Parts.IsSound ⟨text.map plain, [], none⟩ :=
        ⟨isRun_map_plain run.digit, by simpa using run.nonempty, by simp [IsRun], by simp⟩
      rw [Parts.real?_of_plain sound (by simp [Parts.text, Parts.exponentText]), Parts.decimal,
        List.append_nil, digitsValue_map_plain run.digit]
      rfl
  | @point digits places run more =>
      have all : ∀ c ∈ digits ++ places, isDigit c = true :=
        List.forall_mem_append.mpr ⟨run.digit, more.digit⟩
      have sound : Parts.IsSound ⟨digits.map plain, places.map plain, none⟩ :=
        ⟨isRun_map_plain run.digit, by simpa using run.nonempty, isRun_map_plain more.digit,
          by simp⟩
      have plainly : (digits ++ '.' :: places).map plain =
          Parts.text ⟨digits.map plain, places.map plain, none⟩ := by
        have point : plain '.' = '.' := by decide
        simp [Parts.text, Parts.exponentText, more.nonempty, point]
      rw [Parts.real?_of_plain sound plainly, Parts.decimal, ← List.map_append,
        digitsValue_map_plain all]
      simp [Parts.exponentValue]

/-- A run of digits is read as the whole number that it writes, unless it is too long. -/
theorem integer?_eq_numberOf {text : List Char} (run : IsDigits text)
    (short : text.length ≤ longestInteger) : integer? text = some (numberOf text : ℤ) := by
  have sound : Parts.IsSound ⟨text.map plain, [], none⟩ :=
    ⟨isRun_map_plain run.digit, by simpa using run.nonempty, by simp [IsRun], by simp⟩
  have bodyEq : body text = text.map plain := by
    rw [Parts.body_of_plain sound (by simp [Parts.text, Parts.exponentText])]
    simp [Parts.text, Parts.exponentText]
  have latin := isRun_map_plain run.digit
  obtain ⟨c, rest, split⟩ : ∃ c rest, text.map plain = c :: rest :=
    List.exists_cons_of_ne_nil sound.whole_ne_nil
  have marks : ∀ n < 10, Char.ofNat (48 + n) ≠ '-' ∧ Char.ofNat (48 + n) ≠ '+' ∧
      Char.ofNat (48 + n) ≠ '_' := by
    decide
  have unmarked {d : Char} (mem : d ∈ text.map plain) : d ≠ '-' ∧ d ≠ '+' ∧ d ≠ '_' := by
    obtain ⟨n, small, rfl⟩ := exists_of_isDigit (latin d mem)
    exact marks n small
  have first := unmarked (split ▸ List.mem_cons_self : c ∈ text.map plain)
  have unsigned : sign (text.map plain) = (false, text.map plain) := by
    rw [split]
    exact sign_cons first.1 first.2.1 rest
  have noUnderscore : '_' ∉ text.map plain := fun mem => (unmarked mem).2.2 rfl
  have digits : (text.map plain).all Char.isDigit = true := List.all_eq_true.mpr latin
  have some : (text.map plain).isEmpty = false := by simpa using run.nonempty
  simp only [integer?, bodyEq, unsigned, withoutUnderscores?_eq_self noUnderscore, some, digits,
    digitsValue_map_plain run.digit]
  simp [short]

section Order

variable {c d : Char} {text other : List Char}

/-- The code point of the zero of the script in which a digit is written. -/
def zero? (c : Char) : Option ℕ :=
  digitZeros.find? fun least => least ≤ c.toNat && c.toNat < least + 10

theorem digitValue?_eq (c : Char) : digitValue? c = (zero? c).map (c.toNat - ·) := rfl

/-- The number that the digits behind a first one write, and what the first one adds to it. -/
theorem numberOf_cons (c : Char) (text : List Char) :
    numberOf (c :: text) = (digitValue? c).getD 0 * 10 ^ text.length + numberOf text := by
  induction text using List.reverseRecOn with
  | nil => simp [numberOf]
  | append_singleton text d ih =>
      simp only [numberOf, List.foldl_cons, List.foldl_append, List.foldl_nil, List.length_append,
        List.length_singleton, pow_succ] at ih ⊢
      rw [ih]
      ring

theorem numberOf_lt (digits : ∀ c ∈ text, isDigit c = true) : numberOf text < 10 ^ text.length := by
  induction text with
  | nil => decide
  | cons c text ih =>
      obtain ⟨here, later⟩ := List.forall_mem_cons.mp digits
      obtain ⟨value, small, valueEq, _⟩ := exists_plain here
      have rest := ih later
      have bound : value * 10 ^ text.length ≤ 9 * 10 ^ text.length :=
        Nat.mul_le_mul_right _ (by omega)
      rw [numberOf_cons, valueEq, Option.getD_some, List.length_cons, pow_succ]
      omega

/-- A digit stands as far behind its zero as its value says. -/
theorem toNat_eq_of_zero? {least : ℕ} (zero : zero? c = some least) :
    c.toNat = least + (digitValue? c).getD 0 := by
  have near := List.find?_some zero
  simp only [Bool.and_eq_true, decide_eq_true_eq] at near
  rw [digitValue?_eq, zero, Option.map_some, Option.getD_some]
  omega

/-- Different digits of one script have different values, and they are in the order of these. -/
theorem value_order (digit : isDigit c = true) (script : zero? c = zero? d) (apart : c ≠ d) :
    (digitValue? c).getD 0 ≠ (digitValue? d).getD 0 ∧
      (c < d ↔ (digitValue? c).getD 0 < (digitValue? d).getD 0) := by
  obtain ⟨_, valueEq⟩ := Option.isSome_iff_exists.mp digit
  obtain ⟨least, zero, _⟩ := Option.map_eq_some_iff.mp valueEq
  have place := toNat_eq_of_zero? zero
  have place' := toNat_eq_of_zero? (script.symm.trans zero)
  have numbers : c.toNat ≠ d.toNat := fun equal => apart (Char.toNat_inj.mp equal)
  have order : c < d ↔ c.toNat < d.toNat := by
    rw [Char.lt_def, UInt32.lt_iff_toNat_lt]
    rfl
  rw [order]
  omega

/-- Where the leading digits differ, they decide. -/
theorem leading_lt_iff {first first' low low' unit : ℕ} (small : low < unit) (small' : low' < unit)
    (apart : first ≠ first') : first * unit + low < first' * unit + low' ↔ first < first' := by
  rcases Nat.lt_or_gt_of_ne apart with before | behind
  · have step := Nat.mul_le_mul_right unit (Nat.succ_le_of_lt before)
    rw [Nat.succ_mul] at step
    omega
  · have step := Nat.mul_le_mul_right unit (Nat.succ_le_of_lt behind)
    rw [Nat.succ_mul] at step
    omega

/-- Whether two texts part at digits of one script, if they part at all. -/
def partInScript : List Char → List Char → Bool
  | c :: text, d :: other => if c = d then partInScript text other else zero? c == zero? d
  | _, _ => true

/-- Where digits part in one script, they are in the order of the numbers that they write. -/
theorem lt_iff_numberOf_lt (digits : ∀ c ∈ text, isDigit c = true)
    (digits' : ∀ c ∈ other, isDigit c = true) (length : text.length = other.length)
    (script : partInScript text other = true) : text < other ↔ numberOf text < numberOf other := by
  induction text generalizing other with
  | nil =>
      obtain rfl : other = [] := List.length_eq_zero_iff.mp length.symm
      simp
  | cons c text ih =>
      cases other with
      | nil => cases length
      | cons d other =>
          obtain ⟨here, later⟩ := List.forall_mem_cons.mp digits
          obtain ⟨here', later'⟩ := List.forall_mem_cons.mp digits'
          have lengths : text.length = other.length := Nat.succ.inj length
          rw [List.cons_lt_cons_iff, numberOf_cons, numberOf_cons, lengths]
          by_cases same : c = d
          · rw [partInScript, if_pos same] at script
            have rest := ih later later' lengths script
            subst same
            simp [rest]
          · rw [partInScript, if_neg same, beq_iff_eq] at script
            obtain ⟨apart, order⟩ := value_order here script same
            have small := numberOf_lt later
            rw [lengths] at small
            rw [leading_lt_iff small (numberOf_lt later') apart]
            simp only [same, false_and, or_false, order]

end Order

end FilmQuery.Number.Numeral
