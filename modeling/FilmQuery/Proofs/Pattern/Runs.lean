/-
# Runs of characters

A repetition that prefers more takes a run of characters as far as it goes, if that leads on
(`seekMany_run`).  If no place within the run or behind it leads on, nothing of it is taken
(`seekMany_run_eq`).
-/
import FilmQuery.Pattern.Search

namespace FilmQuery

/-- What a text begins with that passes a test is settled by where the test is passed no more. -/
theorem append_inj_of_all (test : Char → Bool) {first first' second second' : List Char}
    (same : first ++ second = first' ++ second') (passes : ∀ c ∈ first, test c = true)
    (passes' : ∀ c ∈ first', test c = true) (stops : second.head?.any test = false)
    (stops' : second'.head?.any test = false) : first = first' ∧ second = second' := by
  rcases List.append_eq_append_iff.mp same with ⟨more, rfl, split⟩ | ⟨more, rfl, split⟩
  · cases more with
    | nil => exact ⟨(List.append_nil _).symm, split⟩
    | cons c more =>
        rw [split, List.cons_append, List.head?_cons, Option.any_some, passes' c (by simp)] at stops
        cases stops
  · cases more with
    | nil => exact ⟨List.append_nil _, split.symm⟩
    | cons c more =>
        rw [split, List.cons_append, List.head?_cons, Option.any_some, passes c (by simp)] at stops'
        cases stops'

/-- The place so many characters further on. -/
def Place.past (p : Place) (n : Nat) : Place :=
  ⟨(p.rest.take n).getLast?.or p.previous, p.position + n, p.rest.drop n, p.captures⟩

namespace Place

variable {p : Place} {c : Char} {rest : List Char}

theorem past_one (split : p.rest = c :: rest) :
    p.past 1 = ⟨some c, p.position + 1, rest, p.captures⟩ := by
  simp [past, split]

theorem past_succ (split : p.rest = c :: rest) (n : Nat) : p.past (n + 1) = (p.past 1).past n := by
  rw [past_one split]
  simp [past, split, List.getLast?_cons, Nat.add_comm, Nat.add_left_comm]

theorem past_past (p : Place) (m n : Nat) : (p.past m).past n = p.past (m + n) := by
  simp [past, List.take_add, List.getLast?_append, Option.or_assoc, Nat.add_assoc]

end Place

namespace Pattern

variable {test : Char → Bool} {onward : Onward} {p : Place} {c : Char} {rest : List Char}

theorem seekChar_cons (split : p.rest = c :: rest) :
    seekChar test onward p = if test c then onward (p.past 1) else none := by
  rw [Place.past_one split, seekChar, split]

theorem seekChar_eq_none (stops : p.rest.head?.any test = false) :
    seekChar test onward p = none := by
  cases split : p.rest with
  | nil => rw [seekChar, split]
  | cons c rest =>
      rw [split, List.head?_cons, Option.any_some] at stops
      rw [seekChar_cons split, stops, if_neg Bool.false_ne_true]

/-- Where the test is not passed nothing more is taken. -/
theorem seekFurther_eq (stops : p.rest.head?.any test = false) (limit : Nat) :
    seekFurther (seekChar test) true limit onward p = onward p := by
  cases limit with
  | zero => rfl
  | succ limit => rw [seekFurther, if_pos rfl, seekChar_eq_none stops, orElse]

theorem seekFurther_cons (split : p.rest = c :: rest) (passes : test c = true) (limit : Nat) :
    seekFurther (seekChar test) true (limit + 1) onward p =
      orElse (seekFurther (seekChar test) true limit onward (p.past 1)) fun _ => onward p := by
  have further : p.position < (p.past 1).position := Nat.lt_succ_self _
  rw [seekFurther, if_pos rfl, seekChar_cons split, if_pos passes, if_pos further]

theorem seekFurther_one (step : Onward → Onward) (onward : Onward) (p : Place) :
    seekFurther step true 1 onward p = orElse (step onward p) fun _ => onward p := by
  simp only [seekFurther, if_true, ite_self]

section Run

variable {text behind : List Char}

/-- A run is taken as far as it goes, if that leads on. -/
theorem seekFurther_run (split : p.rest = text ++ behind) (passes : ∀ c ∈ text, test c = true)
    (stops : behind.head?.any test = false) {limit : Nat} (enough : text.length ≤ limit)
    {q : Place} (found : onward (p.past text.length) = some q) :
    seekFurther (seekChar test) true limit onward p = some q := by
  induction text generalizing p limit with
  | nil =>
      rw [List.nil_append] at split
      rw [seekFurther_eq (split ▸ stops)]
      exact found
  | cons c text ih =>
      obtain ⟨here, later⟩ := List.forall_mem_cons.mp passes
      obtain ⟨limit, rfl⟩ : ∃ n, limit = n + 1 := ⟨limit - 1, by simp at enough; omega⟩
      have onwards : (p.past 1).rest = text ++ behind := by rw [Place.past_one split]; rfl
      rw [List.length_cons, Place.past_succ split] at found
      rw [seekFurther_cons split here, ih onwards later (by simpa using enough) found, orElse]

/-- If no place further on in a run leads on, there is only this one. -/
theorem seekFurther_run_eq (split : p.rest = text ++ behind) (passes : ∀ c ∈ text, test c = true)
    (stops : behind.head?.any test = false) (limit : Nat)
    (dead : ∀ n < text.length, onward (p.past (n + 1)) = none) :
    seekFurther (seekChar test) true limit onward p = onward p := by
  induction text generalizing p limit with
  | nil =>
      rw [List.nil_append] at split
      exact seekFurther_eq (split ▸ stops) limit
  | cons c text ih =>
      obtain ⟨here, later⟩ := List.forall_mem_cons.mp passes
      have onwards : (p.past 1).rest = text ++ behind := by rw [Place.past_one split]; rfl
      have first : onward (p.past 1) = none := dead 0 (Nat.succ_pos _)
      have deadLater : ∀ n < text.length, onward ((p.past 1).past (n + 1)) = none := by
        intro n inRange
        rw [← Place.past_succ split]
        exact dead (n + 1) (Nat.succ_lt_succ inRange)
      cases limit with
      | zero => rfl
      | succ limit =>
          rw [seekFurther_cons split here, ih onwards later limit deadLater, first, orElse]

/-- Goes on behind as many characters as pass a test, but at least some. -/
def seekMany (test : Char → Bool) (least : Nat) (onward : Onward) : Onward :=
  seekExactly (seekChar test) least fun q =>
    seekFurther (seekChar test) true (q.rest.length + 1) onward q

theorem seekMany_run {least : Nat} (few : least ≤ 1) (nonempty : text ≠ [])
    (split : p.rest = text ++ behind) (passes : ∀ c ∈ text, test c = true)
    (stops : behind.head?.any test = false) {q : Place}
    (found : onward (p.past text.length) = some q) :
    seekMany test least onward p = some q := by
  rcases Nat.le_one_iff_eq_zero_or_eq_one.mp few with rfl | rfl
  · exact seekFurther_run split passes stops (by simp [split]; omega) found
  · obtain ⟨c, text, rfl⟩ := List.exists_cons_of_ne_nil nonempty
    obtain ⟨here, later⟩ := List.forall_mem_cons.mp passes
    have onwards : (p.past 1).rest = text ++ behind := by rw [Place.past_one split]; rfl
    rw [List.length_cons, Place.past_succ split] at found
    rw [seekMany, seekExactly, seekChar_cons split, if_pos here]
    exact seekFurther_run onwards later stops (by simp [onwards]; omega) found

theorem seekMany_run_eq {least : Nat} (few : least ≤ 1) (nonempty : text ≠ [])
    (split : p.rest = text ++ behind) (passes : ∀ c ∈ text, test c = true)
    (stops : behind.head?.any test = false)
    (dead : ∀ n < text.length, onward (p.past (n + 1)) = none) :
    seekMany test least onward p = if least = 0 then onward p else none := by
  rcases Nat.le_one_iff_eq_zero_or_eq_one.mp few with rfl | rfl
  · exact seekFurther_run_eq split passes stops _ dead
  · obtain ⟨c, text, rfl⟩ := List.exists_cons_of_ne_nil nonempty
    obtain ⟨here, later⟩ := List.forall_mem_cons.mp passes
    have onwards : (p.past 1).rest = text ++ behind := by rw [Place.past_one split]; rfl
    have deadLater : ∀ n < text.length, onward ((p.past 1).past (n + 1)) = none := by
      intro n inRange
      rw [← Place.past_succ split]
      exact dead (n + 1) (Nat.succ_lt_succ inRange)
    rw [seekMany, seekExactly, seekChar_cons split, if_pos here, if_neg Nat.one_ne_zero]
    exact (seekFurther_run_eq onwards later stops _ deadLater).trans (dead 0 (Nat.succ_pos _))

end Run

end Pattern

end FilmQuery
