/-
# Numerals in parts

A numeral is written in up to three parts: digits, digits behind a point, and an exponent with its
sign.  Such a numeral reads as the decimal of its parts (`real?_text`), also when its digits are
those of another script (`real?_of_plain`).
-/
import FilmQuery.Number.Numeral
import FilmQuery.Proofs.Number.Decimals

namespace FilmQuery.Number.Numeral

section Reading

variable {text : List Char}

theorem sign_cons {c : Char} (noMinus : c ≠ '-') (noPlus : c ≠ '+') (rest : List Char) :
    sign (c :: rest) = (false, c :: rest) := by
  unfold sign
  split
  next same => exact absurd (List.cons.inj same).1 noMinus
  next same => exact absurd (List.cons.inj same).1 noPlus
  next => rfl

/-- A sign is told from the rest of a text also after a change that makes no other signs. -/
theorem sign_map {change : Char → Char} (minus : ∀ c, change c = '-' ↔ c = '-')
    (plus : ∀ c, change c = '+' ↔ c = '+') (text : List Char) :
    sign (text.map change) = ((sign text).1, (sign text).2.map change) := by
  cases text with
  | nil => rfl
  | cons c rest =>
      by_cases negative : c = '-'
      · rw [List.map_cons, (minus c).mpr negative, negative]
        rfl
      · by_cases positive : c = '+'
        · rw [List.map_cons, (plus c).mpr positive, positive]
          rfl
        · rw [sign_cons negative positive, List.map_cons,
            sign_cons (mt (minus c).mp negative) (mt (plus c).mp positive)]

theorem withoutUnderscores?_cons {c : Char} (other : c ≠ '_') (afterDigit : Bool)
    (rest : List Char) :
    withoutUnderscores? afterDigit (c :: rest) =
      (withoutUnderscores? c.isDigit rest).map (c :: ·) := by
  rw [withoutUnderscores?]
  exact fun same => other same

theorem withoutUnderscores?_eq_self (none : '_' ∉ text) (afterDigit : Bool) :
    withoutUnderscores? afterDigit text = some text := by
  induction text generalizing afterDigit with
  | nil => rfl
  | cons c text ih =>
      rw [List.mem_cons, not_or] at none
      rw [withoutUnderscores?_cons (Ne.symm none.1), ih none.2]
      rfl

/-- A numeral with a point. -/
theorem magnitude?_of_point {more : List Char} (point : text.dropWhile Char.isDigit = '.' :: more) :
    magnitude? text =
      if (text.takeWhile Char.isDigit).isEmpty && (more.takeWhile Char.isDigit).isEmpty then none
      else
        (exponent? (more.dropWhile Char.isDigit)).map fun e =>
          (digitsValue (text.takeWhile Char.isDigit ++ more.takeWhile Char.isDigit),
            e - ((more.takeWhile Char.isDigit).length : Int)) := by
  rw [magnitude?, point]
  rfl

/-- A numeral without a point. -/
theorem magnitude?_of_no_point (noPoint : ∀ more, text.dropWhile Char.isDigit ≠ '.' :: more) :
    magnitude? text =
      if (text.takeWhile Char.isDigit).isEmpty then none
      else
        (exponent? (text.dropWhile Char.isDigit)).map fun e =>
          (digitsValue (text.takeWhile Char.isDigit), e) := by
  rw [magnitude?]
  simp only [List.isEmpty_nil, Bool.and_true, List.append_nil, List.length_nil,
    Int.natCast_zero, Int.sub_zero]

end Reading

section Digits

variable (digits more : List Char)

theorem digitsValue_eq : digitsValue digits = Nat.ofDigitChars 10 digits 0 :=
  Nat.ofDigitChars_eq_foldl.symm

theorem digitsValue_append :
    digitsValue (digits ++ more) = digitsValue digits * 10 ^ more.length + digitsValue more := by
  rw [digitsValue_eq, Nat.ofDigitChars_append, Nat.ofDigitChars_eq_ofDigitChars_zero,
    ← digitsValue_eq, ← digitsValue_eq, Nat.mul_comm]

theorem digitsValue_replicate_zero (n : ℕ) : digitsValue (List.replicate n '0') = 0 := by
  rw [digitsValue_eq, Nat.ofDigitChars_replicate_zero, Nat.mul_zero]

theorem digitsValue_decimalDigits (n : ℕ) : digitsValue (decimalDigits n) = n := by
  rw [digitsValue_eq]
  exact Nat.ofDigitChars_ten_toDigits

end Digits

/-- Whether a text is a run of Latin digits. -/
def IsRun (digits : List Char) : Prop := ∀ c ∈ digits, c.isDigit = true

theorem exists_of_isDigit {c : Char} (digit : c.isDigit = true) :
    ∃ n < 10, c = Char.ofNat (48 + n) := by
  simp only [Char.isDigit, Bool.and_eq_true, decide_eq_true_eq] at digit
  have low := UInt32.le_iff_toNat_le.mp digit.1
  have high := UInt32.le_iff_toNat_le.mp digit.2
  change 48 ≤ c.toNat at low
  change c.toNat ≤ 57 at high
  exact ⟨c.toNat - 48, by omega, by rw [Nat.add_sub_cancel' low, Char.ofNat_toNat]⟩

/-- A run of digits ends where something else follows. -/
theorem split_run {digits : List Char} (rest : List Char) (run : IsRun digits)
    (other : rest.head?.any Char.isDigit = false) :
    (digits ++ rest).takeWhile Char.isDigit = digits ∧
      (digits ++ rest).dropWhile Char.isDigit = rest := by
  rw [List.takeWhile_append_of_pos run, List.dropWhile_append_of_pos run]
  cases rest with
  | nil => simp
  | cons c rest =>
      have noDigit : c.isDigit = false := other
      simp [noDigit]

/-- The parts of a numeral: digits, digits behind a point, and sign and digits of an exponent. -/
structure Parts where
  whole : List Char
  places : List Char := []
  exponent : Option (Bool × List Char) := none

namespace Parts

/-- The exponent as it is written. -/
def exponentText : Option (Bool × List Char) → List Char
  | none => []
  | some (negative, digits) => 'e' :: (if negative then '-' else '+') :: digits

/-- The value of the exponent. -/
def exponentValue : Option (Bool × List Char) → ℤ
  | none => 0
  | some (negative, digits) => if negative then -digitsValue digits else digitsValue digits

variable (p : Parts)

/-- The numeral that is written with these parts; where there are no places there is no point. -/
def text : List Char :=
  p.whole ++ ((if p.places = [] then [] else '.' :: p.places) ++ exponentText p.exponent)

/-- The decimal that the parts write. -/
def decimal : Decimal :=
  ⟨digitsValue (p.whole ++ p.places), exponentValue p.exponent - (p.places.length : ℤ)⟩

/-- All parts are made of digits, and the first one has some, as has an exponent. -/
structure IsSound : Prop where
  whole : IsRun p.whole
  whole_ne_nil : p.whole ≠ []
  places : IsRun p.places
  exponent : ∀ e ∈ p.exponent, IsRun e.2 ∧ e.2 ≠ []

variable {p}

theorem exponent?_exponentText {e : Option (Bool × List Char)}
    (sound : ∀ e' ∈ e, IsRun e'.2 ∧ e'.2 ≠ []) :
    exponent? (exponentText e) = some (exponentValue e) := by
  rcases e with _ | ⟨negative, digits⟩
  · rfl
  · obtain ⟨run, nonempty⟩ := sound _ rfl
    have all : digits.all Char.isDigit = true := List.all_eq_true.mpr run
    have some : digits.isEmpty = false := by simpa using nonempty
    cases negative
    · simp only [exponentText, exponent?, sign, Bool.false_eq_true, if_false]
      simp [all, some, exponentValue]
    · simp only [exponentText, exponent?, sign, if_true]
      simp [all, some, exponentValue]

theorem magnitude?_text (sound : p.IsSound) :
    magnitude? p.text = some (p.decimal.coefficient, p.decimal.exponent) := by
  have tail : (exponentText p.exponent).head?.any Char.isDigit = false := by
    rcases p.exponent with _ | ⟨negative, digits⟩ <;> rfl
  have noPoint (more : List Char) : exponentText p.exponent ≠ '.' :: more := by
    rcases p.exponent with _ | ⟨negative, digits⟩ <;> simp [exponentText]
  have some : p.whole.isEmpty = false := by simpa using sound.whole_ne_nil
  have read := exponent?_exponentText sound.exponent
  by_cases none : p.places = []
  · obtain ⟨taken, left⟩ := split_run _ sound.whole tail
    rw [← left] at noPoint
    rw [text, if_pos none, List.nil_append, magnitude?_of_no_point noPoint, taken, left, some, read,
      decimal, none]
    simp
  · obtain ⟨taken, left⟩ := split_run
      ('.' :: (p.places ++ exponentText p.exponent)) sound.whole rfl
    obtain ⟨takenPlaces, leftPlaces⟩ := split_run _ sound.places tail
    rw [text, if_neg none, List.cons_append, magnitude?_of_point left, taken, takenPlaces,
      leftPlaces, some, read, decimal]
    simp

/-- What holds of the digits and marks of numerals holds of every character of one. -/
theorem of_mem_text (sound : p.IsSound) (test : Char → Bool)
    (digits : ∀ n < 10, test (Char.ofNat (48 + n)) = true)
    (marks : ['.', 'e', '+', '-'].all test = true) {c : Char} (mem : c ∈ p.text) :
    test c = true := by
  have marks := List.all_eq_true.mp marks
  have ofRun {digits' : List Char} (run : IsRun digits') (mem : c ∈ digits') : test c = true := by
    obtain ⟨n, small, rfl⟩ := exists_of_isDigit (run c mem)
    exact digits n small
  rw [text, List.mem_append, List.mem_append] at mem
  rcases mem with inWhole | inPlaces | inExponent
  · exact ofRun sound.whole inWhole
  · split at inPlaces
    · cases inPlaces
    · rcases List.mem_cons.mp inPlaces with rfl | inPlaces
      · exact marks _ (by simp)
      · exact ofRun sound.places inPlaces
  · have exponent := sound.exponent
    generalize p.exponent = e at exponent inExponent
    rcases e with _ | ⟨negative, run⟩
    · cases inExponent
    · rw [exponentText] at inExponent
      rcases List.mem_cons.mp inExponent with rfl | inExponent
      · exact marks _ (by simp)
      · rcases List.mem_cons.mp inExponent with rfl | inExponent
        · cases negative <;> exact marks _ (by simp)
        · exact ofRun (exponent _ rfl).1 inExponent

theorem body_of_plain (sound : p.IsSound) {typed : List Char} (plainly : typed.map plain = p.text) :
    body typed = p.text := by
  have inner : ∀ c ∈ p.text, (!isMargin c) = true := fun c mem =>
    of_mem_text sound (fun c => !isMargin c) (by decide) (by decide) mem
  have kept {text : List Char} (inner : ∀ c ∈ text, (!isMargin c) = true) :
      text.dropWhile isMargin = text := by
    cases text with
    | nil => rfl
    | cons c text =>
        have here := inner c List.mem_cons_self
        rw [Bool.not_eq_true'] at here
        rw [List.dropWhile_cons, here]
        rfl
  have innerReversed : ∀ c ∈ p.text.reverse, (!isMargin c) = true := fun c mem =>
    inner c (List.mem_reverse.mp mem)
  rw [body, plainly, kept inner, kept innerReversed, List.reverse_reverse]

/-- A numeral reads as the decimal of its parts, whatever the script of its digits. -/
theorem real?_of_plain (sound : p.IsSound) {typed : List Char}
    (plainly : typed.map plain = p.text) : real? typed = some p.decimal.toBinary64 := by
  obtain ⟨c, whole, here⟩ := List.exists_cons_of_ne_nil sound.whole_ne_nil
  obtain ⟨n, small, rfl⟩ := exists_of_isDigit (sound.whole c (here ▸ List.mem_cons_self))
  obtain ⟨rest, textEq⟩ : ∃ rest, p.text = Char.ofNat (48 + n) :: rest := by
    rw [text, here]
    exact ⟨_, rfl⟩
  have digits : ∀ n < 10, Char.ofNat (48 + n) ≠ '-' ∧ Char.ofNat (48 + n) ≠ '+' ∧
      (Char.ofNat (48 + n)).toLower ≠ 'i' ∧ (Char.ofNat (48 + n)).toLower ≠ 'n' := by
    decide
  obtain ⟨noMinus, noPlus, noI, noN⟩ := digits n small
  have unsigned : sign p.text = (false, p.text) := by
    rw [textEq, sign_cons noMinus noPlus]
  have noWord {word : List Char} {letter : Char} (other : (Char.ofNat (48 + n)).toLower ≠ letter) :
      String.ofList (p.text.map Char.toLower) ≠ String.ofList (letter :: word) := by
    rw [textEq, List.map_cons]
    intro same
    exact other (List.cons.inj (String.ofList_injective same)).1
  have noUnderscore : '_' ∉ p.text := fun mem => by
    have other := of_mem_text sound (· != '_') (by decide) (by decide) mem
    exact absurd other (by decide)
  rw [real?, body_of_plain sound plainly, unsigned]
  simp only []
  rw [if_neg (not_or.mpr ⟨noWord noI, noWord noI⟩), if_neg (noWord noN),
    withoutUnderscores?_eq_self noUnderscore]
  simp only [magnitude?_text sound]
  rfl

theorem isDigit_getLast?_text (sound : p.IsSound) : ∀ c ∈ p.text.getLast?, c.isDigit = true := by
  have ofRun {digits : List Char} (run : IsRun digits) : ∀ c ∈ digits.getLast?, c.isDigit = true :=
    fun c mem => run c (List.mem_of_getLast? mem)
  have lastOf {front digits : List Char} (run : IsRun digits) (nonempty : digits ≠ []) :
      ∀ c ∈ (front ++ digits).getLast?, c.isDigit = true := by
    rw [List.getLast?_append_of_ne_nil _ nonempty]
    exact ofRun run
  have exponent := sound.exponent
  rw [text]
  generalize p.exponent = e at exponent
  rcases e with _ | ⟨negative, digits⟩
  · rw [exponentText, List.append_nil]
    split
    · rw [List.append_nil]
      exact ofRun sound.whole
    next some =>
      have split := List.append_cons p.whole '.' p.places
      rw [split]
      exact lastOf sound.places some
  · obtain ⟨run, some⟩ := exponent _ rfl
    have split (front : List Char) (sign : Char) :
        front ++ 'e' :: sign :: digits = (front ++ ['e', sign]) ++ digits := by simp
    rw [exponentText, ← List.append_assoc, split]
    exact lastOf run some

/-- A minus in a numeral stands behind the `e` of an exponent. -/
theorem isChain_text (sound : p.IsSound) :
    p.text.IsChain fun c d => d = '-' → c = 'e' := by
  have noMinus {digits : List Char} (run : IsRun digits) : '-' ∉ digits := fun mem =>
    absurd (run _ mem) (by decide)
  have free {text : List Char} (none : '-' ∉ text) :
      text.IsChain fun c d => d = '-' → c = 'e' :=
    List.Pairwise.isChain (List.pairwise_of_forall_mem_list
      fun _ _ _ mem same => absurd (same ▸ mem) none)
  have front : '-' ∉ p.whole ++ if p.places = [] then [] else '.' :: p.places := by
    rw [List.mem_append, not_or]
    refine ⟨noMinus sound.whole, ?_⟩
    split
    · exact List.not_mem_nil
    · rw [List.mem_cons, not_or]
      exact ⟨by decide, noMinus sound.places⟩
  have exponent := sound.exponent
  rw [text, ← List.append_assoc]
  refine List.isChain_append.mpr ⟨free front, ?_, ?_⟩
  · generalize p.exponent = e at exponent
    rcases e with _ | ⟨negative, digits⟩
    · exact .nil
    · have run := (exponent _ rfl).1
      rw [exponentText]
      refine List.isChain_cons.mpr ⟨fun _ _ _ => rfl,
        List.isChain_cons.mpr ⟨?_, free (noMinus run)⟩⟩
      intro d head same
      exact absurd (List.mem_of_head? head) (same ▸ noMinus run)
  · intro c _ d head same
    generalize p.exponent = e at head
    rcases e with _ | ⟨negative, digits⟩
    · cases head
    · cases head
      cases same

/-- No numeral goes on with a hyphen. -/
theorem text_ne_append {p' : Parts} (sound : p.IsSound) (sound' : p'.IsSound)
    (rest : List Char) : p'.text ≠ p.text ++ '-' :: rest := fun longer => by
  have chain := isChain_text sound'
  rw [longer, List.isChain_append] at chain
  have nonempty : p.text ≠ [] := by
    rw [text, ne_eq, List.append_eq_nil_iff, not_and_or]
    exact .inl sound.whole_ne_nil
  have last := List.getLast?_eq_getLast_of_ne_nil nonempty
  have digit := isDigit_getLast?_text sound _ last
  rw [chain.2.2 _ last '-' rfl rfl] at digit
  exact absurd digit (by decide)

/-- Two numerals with a hyphen between them can be told apart. -/
theorem text_inj {p' : Parts} (sound : p.IsSound) (sound' : p'.IsSound) {rest rest' : List Char}
    (same : p.text ++ '-' :: rest = p'.text ++ '-' :: rest') : p.text = p'.text ∧ rest = rest' := by
  rcases List.append_eq_append_iff.mp same with ⟨more, longer, eq⟩ | ⟨more, longer, eq⟩
  · cases more with
    | nil =>
        rw [List.append_nil] at longer
        exact ⟨longer.symm, (List.cons.inj eq).2⟩
    | cons c more =>
        rw [← (List.cons.inj eq).1] at longer
        exact absurd longer (text_ne_append sound sound' more)
  · cases more with
    | nil =>
        rw [List.append_nil] at longer
        exact ⟨longer, (List.cons.inj eq).2.symm⟩
    | cons c more =>
        rw [← (List.cons.inj eq).1] at longer
        exact absurd longer (text_ne_append sound' sound more)

/-- A numeral in Latin digits is plain. -/
theorem real?_text (sound : p.IsSound) : real? p.text = some p.decimal.toBinary64 := by
  refine real?_of_plain sound ((List.map_congr_left fun c mem => ?_).trans (List.map_id _))
  have latin := of_mem_text sound (fun c => plain c == c) (by decide) (by decide) mem
  exact eq_of_beq latin

end Parts

end FilmQuery.Number.Numeral
