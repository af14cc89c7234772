/-
# Numerals without case

The letters of a numeral are an exponent or the name of a number, and both are read in any case.  So
a numeral reads the same without the case of its Latin letters.  One that writes a whole number has
no letters at all.
-/
import FilmQuery.Proofs.Number.Integers
import FilmQuery.Proofs.Text.Uncased

namespace FilmQuery.Number.Numeral

open FilmQuery.Text

variable (text : List Char)

@[simp]
theorem isDigit_toLower (c : Char) : c.toLower.isDigit = c.isDigit :=
  apply_toLower Char.isDigit (by decide) c

/-- A sign that is no letter is met without case where it is met at all. -/
theorem toLower_eq_iff (mark : Char)
    (letterless : ∀ n < 26, (Char.ofNat (97 + n) == mark) = (Char.ofNat (65 + n) == mark))
    (c : Char) : c.toLower = mark ↔ c = mark := by
  rw [← beq_iff_eq, ← beq_iff_eq (a := c), apply_toLower (· == mark) letterless]

/-- The plain form of a character beyond the Latin ones is no Latin letter. -/
theorem toLower_plain {c : Char} (foreign : ¬ c.toNat < 127) : (plain c).toLower = plain c := by
  have digits : ∀ value < 10, (Char.ofNat (48 + value)).toLower = Char.ofNat (48 + value) := by
    decide
  rw [plain, if_neg foreign]
  split
  · rfl
  · split
    next value valued =>
      obtain ⟨least, found, rfl⟩ := Option.map_eq_some_iff.mp valued
      have near := List.find?_some found
      simp only [Bool.and_eq_true, decide_eq_true_eq] at near
      exact digits _ (by omega)
    · rfl

theorem plain_toLower (c : Char) : plain c.toLower = (plain c).toLower := by
  rcases toLower_eq_or c with same | ⟨n, letter, capital, small⟩
  · rw [same]
    by_cases latin : c.toNat < 127
    · rw [plain, if_pos latin, same]
    · rw [toLower_plain latin]
  · have letters : ∀ n < 26,
        plain (Char.ofNat (97 + n)) = (plain (Char.ofNat (65 + n))).toLower := by
      decide
    rw [small, capital, letters n letter]

theorem body_uncased : body (uncased text) = uncased (body text) := by
  have margin : isMargin ∘ Char.toLower = isMargin := funext (apply_toLower isMargin (by decide))
  have plainly : (uncased text).map plain = (text.map plain).map Char.toLower := by
    simp [uncased, plain_toLower]
  rw [body, plainly, body]
  generalize text.map plain = text
  simp only [uncased, List.dropWhile_map, ← List.map_reverse, margin]

theorem sign_uncased : sign (uncased text) = ((sign text).1, uncased (sign text).2) :=
  sign_map (toLower_eq_iff '-' (by decide)) (toLower_eq_iff '+' (by decide)) text

theorem withoutUnderscores?_uncased (afterDigit : Bool) :
    withoutUnderscores? afterDigit (uncased text) =
      (withoutUnderscores? afterDigit text).map uncased := by
  have underscore := toLower_eq_iff '_' (by decide)
  induction text generalizing afterDigit with
  | nil => rfl
  | cons c rest ih =>
      by_cases here : c = '_'
      · rw [here]
        cases rest with
        | nil => rfl
        | cons d others =>
            have later := ih false
            rw [uncased, List.map_cons] at later
            change withoutUnderscores? afterDigit ('_' :: d.toLower :: others.map Char.toLower) = _
            rw [withoutUnderscores?, withoutUnderscores?, isDigit_toLower, later,
              apply_ite (Option.map uncased)]
            rfl
      · rw [withoutUnderscores?_cons here, uncased, List.map_cons,
          withoutUnderscores?_cons (mt (underscore c).mp here), isDigit_toLower, ← uncased, ih,
          Option.map_map, Option.map_map]
        rfl

theorem toLower_of_isDigit {c : Char} (digit : c.isDigit = true) : c.toLower = c := by
  have noDigit : ∀ n < 26, (Char.ofNat (65 + n)).isDigit = false := by decide
  rcases toLower_eq_or c with same | ⟨n, letter, rfl, _⟩
  · exact same
  · rw [noDigit n letter] at digit
    cases digit

/-- Digits have no case. -/
theorem uncased_of_isDigit {digits : List Char} (all : ∀ c ∈ digits, c.isDigit = true) :
    uncased digits = digits :=
  (List.map_congr_left fun c mem => toLower_of_isDigit (all c mem)).trans (List.map_id _)

theorem takeWhile_isDigit_uncased :
    (uncased text).takeWhile Char.isDigit = text.takeWhile Char.isDigit := by
  have digit : Char.isDigit ∘ Char.toLower = Char.isDigit := funext isDigit_toLower
  rw [uncased, List.takeWhile_map, digit]
  exact uncased_of_isDigit fun c mem => List.mem_takeWhile_imp mem

theorem dropWhile_isDigit_uncased :
    (uncased text).dropWhile Char.isDigit = uncased (text.dropWhile Char.isDigit) := by
  have digit : Char.isDigit ∘ Char.toLower = Char.isDigit := funext isDigit_toLower
  rw [uncased, List.dropWhile_map, digit, uncased]

theorem all_isDigit_uncased : (uncased text).all Char.isDigit = text.all Char.isDigit := by
  simp [uncased, Function.comp_def]

/-- A run of digits is there in any case or not at all, and has the same value. -/
theorem digits_uncased {α : Type} (refused : α) (read : List Char → α) :
    (if (uncased text).isEmpty || !(uncased text).all Char.isDigit then refused
      else read (uncased text)) =
      if text.isEmpty || !text.all Char.isDigit then refused else read text := by
  have empty : (uncased text).isEmpty = text.isEmpty := by simp [uncased]
  rw [empty, all_isDigit_uncased]
  split
  · rfl
  next digits =>
    rw [uncased_of_isDigit]
    simp only [Bool.or_eq_true, Bool.not_eq_true', not_or, Bool.not_eq_false,
      List.all_eq_true] at digits
    exact digits.2

theorem exponent?_uncased : exponent? (uncased text) = exponent? text := by
  cases text with
  | nil => rfl
  | cons e rest =>
      rw [uncased, List.map_cons, ← uncased, exponent?, exponent?, toLower_toLower, sign_uncased]
      split
      · rfl
      · exact digits_uncased (sign rest).2 none fun digits =>
          some (if (sign rest).1 then -(digitsValue digits : Int) else digitsValue digits)

theorem magnitude?_uncased : magnitude? (uncased text) = magnitude? text := by
  have mark := toLower_eq_iff '.' (by decide)
  have rest := dropWhile_isDigit_uncased text
  by_cases point : ∃ more, text.dropWhile Char.isDigit = '.' :: more
  · obtain ⟨more, point⟩ := point
    replace rest : (uncased text).dropWhile Char.isDigit = '.' :: uncased more := by
      rw [rest, point]
      rfl
    rw [magnitude?_of_point point, magnitude?_of_point rest, takeWhile_isDigit_uncased,
      takeWhile_isDigit_uncased, dropWhile_isDigit_uncased, exponent?_uncased]
  · rw [not_exists] at point
    rw [magnitude?_of_no_point point, magnitude?_of_no_point, takeWhile_isDigit_uncased, rest,
      exponent?_uncased]
    intro more pointed
    rw [rest] at pointed
    cases tail : text.dropWhile Char.isDigit with
    | nil =>
        rw [tail] at pointed
        cases pointed
    | cons c others =>
        rw [tail, uncased, List.map_cons] at pointed
        have same := (mark c).mp (List.cons.inj pointed).1
        exact point others (same ▸ tail)

/-- A numeral reads the same in any case. -/
theorem real?_uncased : real? (uncased text) = real? text := by
  have word (rest : List Char) : (uncased rest).map Char.toLower = rest.map Char.toLower :=
    uncased_uncased rest
  rw [real?, real?, body_uncased, sign_uncased]
  simp only [word, withoutUnderscores?_uncased]
  cases withoutUnderscores? false (sign (body text)).2 with
  | none => rfl
  | some digits => simp only [Option.map_some, magnitude?_uncased]

theorem integer?_uncased : integer? (uncased text) = integer? text := by
  rw [integer?, integer?, body_uncased, sign_uncased]
  simp only [withoutUnderscores?_uncased]
  cases withoutUnderscores? false (sign (body text)).2 with
  | none => rfl
  | some digits =>
      simp only [Option.map_some]
      rw [length_uncased]
      by_cases all : digits.all Char.isDigit = true
      · rw [uncased_of_isDigit (List.all_eq_true.mp all)]
      · simp [all_isDigit_uncased, all]

variable {text} in
/-- What writes a whole number has no capitals. -/
theorem uncased_of_integer? (whole : (integer? text).isSome = true) : uncased text = text := by
  have integer := (integer?_isSome_iff.mp whole).1
  refine (List.map_congr_left fun c mem => ?_).trans (List.map_id text)
  rcases toLower_eq_or c with same | ⟨n, letter, rfl, _⟩
  · exact same
  · have capitals : ∀ n < 26, isDigit (Char.ofNat (65 + n)) = false ∧
        isMark (Char.ofNat (65 + n)) = false := by
      decide
    obtain ⟨noDigit, noMark⟩ := capitals n letter
    have known := integer.isDigit_or_isMark _ mem
    rw [noDigit, noMark] at known
    simp at known

end FilmQuery.Number.Numeral
