/-
# Whole numbers as they are typed

A whole number is typed with digits of any script, single underscores between them, perhaps a sign
in front, and blanks around it all (`IsInteger`).  Such a text is read as a whole number, unless it
has too many digits, and no other text is (`integer?_isSome_iff`).  Besides its digits it has
nothing but marks (`isDigit_or_isMark`).
-/
import FilmQuery.Proofs.Number.Typed
import FilmQuery.Proofs.Text.Lines

namespace FilmQuery.Number.Numeral

open FilmQuery.Text

/-- Whether a character is a blank that may stand around a numeral: any but the information
separators. -/
def isOuterBlank (c : Char) : Bool := isBlank c && !(0x1C ≤ c.toNat && c.toNat ≤ 0x1F)

/-- Whether a character may be in a whole number without being a digit of it. -/
def isMark (c : Char) : Bool := isOuterBlank c || List.contains ['+', '-', '_'] c

/-- Digits of any script, with single underscores between some of them. -/
inductive IsGrouped : List Char → Prop
  | last {c : Char} (digit : isDigit c = true) : IsGrouped [c]
  | next {c : Char} {rest : List Char} (digit : isDigit c = true) (more : IsGrouped rest) :
    IsGrouped (c :: rest)
  | group {c : Char} {rest : List Char} (digit : isDigit c = true) (more : IsGrouped rest) :
    IsGrouped (c :: '_' :: rest)

/-- What can be in the place of a sign: nothing, a plus or a minus. -/
def IsSign (mark : List Char) : Prop := mark = [] ∨ mark = ['+'] ∨ mark = ['-']

/-- A whole number as it is typed. -/
inductive IsInteger : List Char → Prop
  | typed {front mark digits behind : List Char} (blank : ∀ c ∈ front, isOuterBlank c = true)
    (signed : IsSign mark) (grouped : IsGrouped digits)
    (blank' : ∀ c ∈ behind, isOuterBlank c = true) :
    IsInteger (front ++ ((mark ++ digits) ++ behind))

section Characters

variable (c : Char)

/-- The plain form of a character: a character of the Latin keyboard is its own, and beyond these
blanks, digits and all others have one each. -/
theorem plain_cases :
    (c.toNat < 127 ∧ plain c = c) ∨
      (127 ≤ c.toNat ∧ isBlank c = true ∧ isDigit c = false ∧ plain c = ' ') ∨
      (isDigit c = true ∧ ∃ value < 10, plain c = Char.ofNat (48 + value)) ∨
      (127 ≤ c.toNat ∧ isBlank c = false ∧ isDigit c = false ∧ plain c = '?') := by
  by_cases latin : c.toNat < 127
  · exact .inl ⟨latin, if_pos latin⟩
  · have foreign : 127 ≤ c.toNat := Nat.le_of_not_lt latin
    cases digit : isDigit c with
    | true =>
        obtain ⟨value, small, _, plainly⟩ := exists_plain digit
        exact .inr (.inr (.inl ⟨rfl, value, small, plainly⟩))
    | false =>
        have noValue : digitValue? c = none := by simpa [isDigit] using digit
        rw [plain, if_neg latin, noValue]
        cases blank : isBlank c with
        | true => exact .inr (.inl ⟨foreign, rfl, rfl, rfl⟩)
        | false => exact .inr (.inr (.inr ⟨foreign, rfl, rfl, rfl⟩))

/-- What is told of the plain form is told of the character itself, if that is so on the Latin
keyboard, and beyond it for blanks, for digits and for all others. -/
theorem apply_plain (test told : Char → Bool)
    (latin : ∀ n < 127, test (Char.ofNat n) = told (Char.ofNat n))
    (blank : 127 ≤ c.toNat → isBlank c = true → isDigit c = false → test ' ' = told c)
    (digit : isDigit c = true → ∀ value < 10, test (Char.ofNat (48 + value)) = told c)
    (other : 127 ≤ c.toNat → isBlank c = false → isDigit c = false → test '?' = told c) :
    test (plain c) = told c := by
  rcases plain_cases c with
    ⟨small, same⟩ | ⟨foreign, isBlank, noDigit, same⟩ | ⟨isDigit, value, small, same⟩ |
      ⟨foreign, noBlank, noDigit, same⟩
  · rw [same, ← Char.ofNat_toNat c]
    exact latin c.toNat small
  · rw [same, blank foreign isBlank noDigit]
  · rw [same, digit isDigit value small]
  · rw [same, other foreign noBlank noDigit]

@[simp]
theorem isDigit_plain : (plain c).isDigit = isDigit c := by
  refine apply_plain c Char.isDigit isDigit (by decide) (fun _ _ noDigit => noDigit.symm)
    (fun digit => ?_) fun _ _ noDigit => noDigit.symm
  rw [digit]
  decide

@[simp]
theorem isMargin_plain : isMargin (plain c) = isOuterBlank c := by
  refine apply_plain c isMargin isOuterBlank (by decide) (fun foreign blank _ => ?_)
    (fun digit => ?_) fun _ noBlank _ => ?_
  · have high : ¬ c.toNat ≤ 31 := by omega
    simp [isOuterBlank, blank, high, isMargin]
  · rw [isOuterBlank, isBlank_eq_false_of_isDigit digit, Bool.false_and]
    decide
  · rw [isOuterBlank, noBlank]
    rfl

/-- Nothing else has the plain form of a sign or an underscore. -/
theorem plain_eq_iff {mark : Char} (listed : mark ∈ ['+', '-', '_']) :
    plain c = mark ↔ c = mark := by
  have latin : mark.toNat < 127 ∧ isDigit mark = false ∧ (' ' == mark) = false ∧
      ('?' == mark) = false ∧ ∀ value < 10, (Char.ofNat (48 + value) == mark) = false := by
    have marks : mark = '+' ∨ mark = '-' ∨ mark = '_' := by simpa using listed
    rcases marks with rfl | rfl | rfl <;> decide
  obtain ⟨small, noDigit, noSpace, noQuery, noLatinDigit⟩ := latin
  have apart (foreign : 127 ≤ c.toNat) : (c == mark) = false := by
    rw [beq_eq_false_iff_ne]
    rintro rfl
    omega
  rw [← beq_iff_eq, ← beq_iff_eq (a := c),
    apply_plain c (· == mark) (· == mark) (fun _ _ => rfl) (fun foreign _ _ => ?_) (fun digit => ?_)
      fun foreign _ _ => ?_]
  · rw [apart foreign, noSpace]
  · have other : (c == mark) = false := by
      rw [beq_eq_false_iff_ne]
      rintro rfl
      rw [digit] at noDigit
      cases noDigit
    rw [other]
    exact noLatinDigit
  · rw [apart foreign, noQuery]

variable {c}

theorem isDigit_eq_false_of_isOuterBlank (blank : isOuterBlank c = true) : isDigit c = false := by
  rw [Bool.eq_false_iff]
  intro digit
  rw [isOuterBlank, isBlank_eq_false_of_isDigit digit] at blank
  cases blank

theorem isOuterBlank_eq_false_of_isDigit (digit : isDigit c = true) : isOuterBlank c = false := by
  rw [isOuterBlank, isBlank_eq_false_of_isDigit digit, Bool.false_and]

end Characters

section Grouped

variable {text : List Char}

theorem isGrouped_cons_iff {c : Char} {rest : List Char} :
    IsGrouped (c :: rest) ↔ isDigit c = true ∧
      (rest = [] ∨ IsGrouped rest ∨ ∃ more, rest = '_' :: more ∧ IsGrouped more) := by
  constructor
  · intro grouped
    cases grouped with
    | last digit => exact ⟨digit, .inl rfl⟩
    | next digit more => exact ⟨digit, .inr (.inl more)⟩
    | group digit more => exact ⟨digit, .inr (.inr ⟨_, rfl, more⟩)⟩
  · rintro ⟨digit, rfl | grouped | ⟨more, rfl, grouped⟩⟩
    · exact .last digit
    · exact .next digit grouped
    · exact .group digit grouped

theorem IsGrouped.isDigit_or_eq (grouped : IsGrouped text) :
    ∀ c ∈ text, isDigit c = true ∨ c = '_' := by
  induction grouped with
  | last digit => simpa using .inl digit
  | next digit _ ih => exact List.forall_mem_cons.mpr ⟨.inl digit, ih⟩
  | group digit _ ih =>
      exact List.forall_mem_cons.mpr ⟨.inl digit, List.forall_mem_cons.mpr ⟨.inr rfl, ih⟩⟩

/-- Grouped digits begin with a digit. -/
theorem IsGrouped.exists_head (grouped : IsGrouped text) :
    ∃ c rest, text = c :: rest ∧ isDigit c = true := by
  cases grouped with
  | last digit | next digit _ | group digit _ => exact ⟨_, _, rfl, digit⟩

/-- Grouped digits end with a digit. -/
theorem IsGrouped.exists_getLast (grouped : IsGrouped text) :
    ∃ c ∈ text.getLast?, isDigit c = true := by
  induction grouped with
  | last digit => exact ⟨_, rfl, digit⟩
  | next _ _ ih =>
      obtain ⟨c, last, digit⟩ := ih
      exact ⟨c, List.mem_getLast?_cons last, digit⟩
  | group _ _ ih =>
      obtain ⟨c, last, digit⟩ := ih
      exact ⟨c, List.mem_getLast?_cons (List.mem_getLast?_cons last), digit⟩

/-- What is left of a text without its underscores, if that is a run of digits. -/
def Leaves (afterDigit : Bool) (text digits : List Char) : Prop :=
  withoutUnderscores? afterDigit (text.map plain) = some digits ∧ IsRun digits

section Leaving

variable {afterDigit : Bool} {digits : List Char}

theorem leaves_nil : Leaves afterDigit [] digits ↔ digits = [] := by
  constructor
  · rintro ⟨taken, _⟩
    exact (Option.some.inj taken).symm
  · rintro rfl
    exact ⟨rfl, List.forall_mem_nil _⟩

theorem leaves_cons {c : Char} (other : c ≠ '_') :
    Leaves afterDigit (c :: text) digits ↔
      isDigit c = true ∧ ∃ rest, digits = plain c :: rest ∧ Leaves true text rest := by
  have plainly : plain c ≠ '_' := mt (plain_eq_iff c (by decide)).mp other
  rw [Leaves, List.map_cons, withoutUnderscores?_cons plainly, isDigit_plain,
    Option.map_eq_some_iff]
  constructor
  · rintro ⟨⟨rest, taken, rfl⟩, run⟩
    obtain ⟨here, run⟩ := List.forall_mem_cons.mp run
    rw [isDigit_plain] at here
    exact ⟨here, rest, rfl, here ▸ taken, run⟩
  · rintro ⟨here, rest, rfl, taken, run⟩
    exact ⟨⟨rest, here ▸ taken, rfl⟩, List.forall_mem_cons.mpr ⟨by rw [isDigit_plain, here], run⟩⟩

/-- An underscore stands behind a digit, and more digits stand behind it. -/
theorem leaves_underscore :
    Leaves afterDigit ('_' :: text) digits ↔
      afterDigit = true ∧ text ≠ [] ∧ Leaves false text digits := by
  have plainly : plain '_' = '_' := by decide
  rw [Leaves, List.map_cons, plainly]
  cases text with
  | nil => simp [withoutUnderscores?]
  | cons d others =>
      rw [List.map_cons, withoutUnderscores?, isDigit_plain]
      -- The second underscore of two does not come behind a digit.
      have digit (left : Leaves false (d :: others) digits) : isDigit d = true := by
        by_cases underscore : d = '_'
        · rw [underscore, Leaves, List.map_cons, plainly] at left
          cases others <;> cases left.1
        · exact ((leaves_cons underscore).mp left).1
      constructor
      · rintro ⟨taken, run⟩
        split at taken
        next both =>
          exact ⟨(Bool.and_eq_true_iff.mp both).1, List.cons_ne_nil _ _, taken, run⟩
        next => cases taken
      · rintro ⟨rfl, _, left⟩
        rw [digit left]
        exact left

/-- Digits are left of nothing but grouped digits. Behind a digit the text may also be over, or go
on with the underscore of the next group. -/
theorem exists_leaves_iff (afterDigit : Bool) (text : List Char) :
    (∃ digits, Leaves afterDigit text digits) ↔
      text = [] ∨ IsGrouped text ∨
        ∃ rest, text = '_' :: rest ∧ afterDigit = true ∧ IsGrouped rest := by
  -- Whether a digit came just before changes along the text, so the induction is for both cases.
  induction text generalizing afterDigit with
  | nil => simp [leaves_nil]
  | cons c text ih =>
      by_cases underscore : c = '_'
      · subst underscore
        have noDigit : ¬ IsGrouped ('_' :: text) := by
          rw [isGrouped_cons_iff]
          exact fun grouped => absurd grouped.1 (by decide)
        have later : text ≠ [] ∧ (∃ digits, Leaves false text digits) ↔ IsGrouped text := by
          rw [ih false]
          constructor
          · rintro ⟨nonempty, empty | grouped | ⟨_, _, after, _⟩⟩
            · exact absurd empty nonempty
            · exact grouped
            · cases after
          · intro grouped
            obtain ⟨d, rest, rfl, _⟩ := grouped.exists_head
            exact ⟨List.cons_ne_nil _ _, .inr (.inl grouped)⟩
        simp [leaves_underscore, noDigit, later]
      · simp [leaves_cons underscore, isGrouped_cons_iff, ih true, underscore]

/-- Taking underscores off keeps every digit. -/
theorem Leaves.length_eq (left : Leaves afterDigit text digits) :
    digits.length = text.countP isDigit := by
  induction text generalizing afterDigit digits with
  | nil =>
      rw [leaves_nil.mp left]
      rfl
  | cons c text ih =>
      by_cases underscore : c = '_'
      · have noDigit : ¬ isDigit c = true := by
          rw [underscore]
          decide
        rw [underscore] at left
        rw [List.countP_cons_of_neg noDigit, ih (leaves_underscore.mp left).2.2]
      · obtain ⟨here, rest, rfl, later⟩ := (leaves_cons underscore).mp left
        rw [List.countP_cons_of_pos here, List.length_cons, ih later]

theorem Leaves.isGrouped (left : Leaves false text digits) (nonempty : digits ≠ []) :
    IsGrouped text := by
  rcases (exists_leaves_iff false text).mp ⟨digits, left⟩ with
    rfl | grouped | ⟨_, _, after, _⟩
  · exact absurd (leaves_nil.mp left) nonempty
  · exact grouped
  · cases after

theorem IsGrouped.exists_leaves (grouped : IsGrouped text) :
    ∃ digits, Leaves false text digits ∧ digits ≠ [] := by
  obtain ⟨digits, left⟩ := (exists_leaves_iff false text).mpr (.inr (.inl grouped))
  obtain ⟨c, rest, rfl, digit⟩ := grouped.exists_head
  have length := left.length_eq
  rw [List.countP_cons_of_pos digit] at length
  exact ⟨digits, left, List.ne_nil_of_length_eq_add_one length⟩

end Leaving

end Grouped

section Whole

/-- What stands between the outer blanks of a text. -/
def core (text : List Char) : List Char :=
  (text.dropWhile isOuterBlank).rdropWhile isOuterBlank

theorem body_eq (text : List Char) : body text = (core text).map plain := by
  have margin : isMargin ∘ plain = isOuterBlank := funext isMargin_plain
  rw [body, List.dropWhile_map, margin, ← List.map_reverse, List.dropWhile_map, margin,
    ← List.map_reverse]
  rfl

theorem exists_core (text : List Char) :
    ∃ front behind, (∀ c ∈ front, isOuterBlank c = true) ∧ (∀ c ∈ behind, isOuterBlank c = true) ∧
      text = front ++ (core text ++ behind) := by
  refine ⟨text.takeWhile isOuterBlank, (text.dropWhile isOuterBlank).rtakeWhile isOuterBlank,
    fun c mem => List.mem_takeWhile_imp mem, fun c mem => List.mem_rtakeWhile_imp mem, ?_⟩
  rw [core, List.rdropWhile_append_rtakeWhile, List.takeWhile_append_dropWhile]

theorem sign_map_plain (text : List Char) :
    sign (text.map plain) = ((sign text).1, (sign text).2.map plain) :=
  sign_map (fun c => plain_eq_iff c (by decide)) (fun c => plain_eq_iff c (by decide)) text


/-- Taking the sign off leaves what stands behind it. -/
theorem exists_sign (text : List Char) : ∃ mark, IsSign mark ∧ text = mark ++ (sign text).2 := by
  unfold sign
  split
  · exact ⟨_, .inr (.inr rfl), rfl⟩
  · exact ⟨_, .inr (.inl rfl), rfl⟩
  · exact ⟨_, .inl rfl, rfl⟩

section Typed

variable {front mark digits behind : List Char}

theorem sign_append (signed : IsSign mark) (grouped : IsGrouped digits) :
    (sign (mark ++ digits)).2 = digits := by
  rcases signed with rfl | rfl | rfl
  · obtain ⟨c, rest, rfl, digit⟩ := grouped.exists_head
    have noSign : c ≠ '-' ∧ c ≠ '+' := by
      constructor <;>
      · rintro rfl
        cases digit
    rw [List.nil_append, sign_cons noSign.1 noSign.2]
  · rfl
  · rfl

theorem core_typed (blank : ∀ c ∈ front, isOuterBlank c = true) (signed : IsSign mark)
    (grouped : IsGrouped digits) (blank' : ∀ c ∈ behind, isOuterBlank c = true) :
    core (front ++ ((mark ++ digits) ++ behind)) = mark ++ digits := by
  refine rdropWhile_dropWhile_eq blank blank' ?_ ?_
  · obtain ⟨c, rest, rfl, digit⟩ := grouped.exists_head
    rcases signed with rfl | rfl | rfl
    · exact isOuterBlank_eq_false_of_isDigit digit
    · rfl
    · rfl
  · obtain ⟨c, last, digit⟩ := grouped.exists_getLast
    rw [List.getLast?_append, last]
    exact isOuterBlank_eq_false_of_isDigit digit

/-- All digits of a whole number stand behind its sign. -/
theorem countP_isDigit_typed (blank : ∀ c ∈ front, isOuterBlank c = true) (signed : IsSign mark)
    (blank' : ∀ c ∈ behind, isOuterBlank c = true) :
    (front ++ ((mark ++ digits) ++ behind)).countP isDigit = digits.countP isDigit := by
  have noDigits {gap : List Char} (blank : ∀ c ∈ gap, isOuterBlank c = true) :
      gap.countP isDigit = 0 := by
    rw [List.countP_eq_zero]
    intro c mem
    rw [isDigit_eq_false_of_isOuterBlank (blank c mem)]
    exact Bool.false_ne_true
  have noDigit : mark.countP isDigit = 0 := by
    rcases signed with rfl | rfl | rfl <;> decide
  rw [List.countP_append, List.countP_append, List.countP_append, noDigits blank, noDigit,
    noDigits blank', Nat.zero_add, Nat.zero_add, Nat.add_zero]

end Typed

variable {text : List Char}

/-- A whole number is read where digits are left of what stands between the outer blanks and behind
the sign, some but not too many. -/
theorem integer?_isSome_iff_leaves : (integer? text).isSome = true ↔
    ∃ digits, Leaves false (sign (core text)).2 digits ∧ digits ≠ [] ∧
      digits.length ≤ longestInteger := by
  rw [integer?, body_eq, sign_map_plain]
  simp only [Leaves]
  cases withoutUnderscores? false ((sign (core text)).2.map plain) with
  | none => simp
  | some digits => simp [IsRun, and_assoc, and_left_comm]

/-- A text is read as a whole number if and only if it is one as it is typed, with no more digits
than are read. -/
theorem integer?_isSome_iff : (integer? text).isSome = true ↔
    IsInteger text ∧ text.countP isDigit ≤ longestInteger := by
  rw [integer?_isSome_iff_leaves]
  constructor
  · rintro ⟨digits, left, nonempty, short⟩
    obtain ⟨front, behind, blank, blank', textEq⟩ := exists_core text
    obtain ⟨mark, signed, coreEq⟩ := exists_sign (core text)
    rw [coreEq] at textEq
    rw [left.length_eq, ← countP_isDigit_typed blank signed blank', ← textEq] at short
    have integer := IsInteger.typed blank signed (left.isGrouped nonempty) blank'
    rw [← textEq] at integer
    exact ⟨integer, short⟩
  · rintro ⟨integer, short⟩
    cases integer with
    | typed blank signed grouped blank' =>
        obtain ⟨digits, left, nonempty⟩ := grouped.exists_leaves
        rw [countP_isDigit_typed blank signed blank', ← left.length_eq] at short
        rw [core_typed blank signed grouped blank', sign_append signed grouped]
        exact ⟨digits, left, nonempty, short⟩

/-- A whole number has nothing but digits and marks. -/
theorem IsInteger.isDigit_or_isMark (integer : IsInteger text) :
    ∀ c ∈ text, isDigit c = true ∨ isMark c = true := by
  have outer {gap : List Char} (blank : ∀ c ∈ gap, isOuterBlank c = true) :
      ∀ c ∈ gap, isDigit c = true ∨ isMark c = true := fun c mem =>
    .inr (by rw [isMark, blank c mem, Bool.true_or])
  cases integer with
  | @typed front mark digits behind blank signed grouped blank' =>
      refine List.forall_mem_append.mpr ⟨outer blank, List.forall_mem_append.mpr
        ⟨List.forall_mem_append.mpr ⟨fun c mem => ?_, fun c mem => ?_⟩, outer blank'⟩⟩
      · have marks : mark.all isMark = true := by
          rcases signed with rfl | rfl | rfl <;> decide
        exact .inr (List.all_eq_true.mp marks c mem)
      · refine (grouped.isDigit_or_eq c mem).imp_right ?_
        rintro rfl
        decide

end Whole

end FilmQuery.Number.Numeral
