/-
# The order of occurrences

A pattern only ever moves on in a text, so an occurrence takes a piece of the text, and the sweep
goes on where the last occurrence ended.  `occurrences_inOrder` is all that the reading of a query
asks of a way to find occurrences: they lie in the text, from left to right, and never overlap.
-/
import FilmQuery.Pattern.Occurrence

namespace FilmQuery

/-- An occurrence lies in a text: its text is a piece of it. -/
structure Occurrence.LiesIn (m : Occurrence) (text : List Char) : Prop where
  start_le_stop : m.start ≤ m.stop
  stop_le_length : m.stop ≤ text.length
  text_eq : m.text = (text.drop m.start).take (m.stop - m.start)

/-- Occurrences in a text from left to right, none of which overlaps another. -/
structure InOrder (text : List Char) (found : List Occurrence) : Prop where
  liesIn : ∀ m ∈ found, m.LiesIn text
  apart : found.Pairwise fun m n => m.stop ≤ n.start

namespace Place

/-- The second place lies some characters further on than the first one. -/
def Ahead (p q : Place) : Prop :=
  ∃ gone, p.rest = gone ++ q.rest ∧ q.position = p.position + gone.length

theorem Ahead.refl (p : Place) : p.Ahead p := ⟨[], rfl, rfl⟩

theorem Ahead.trans {p q r : Place} : p.Ahead q → q.Ahead r → p.Ahead r
  | ⟨first, firstRest, firstPosition⟩, ⟨second, secondRest, secondPosition⟩ =>
    ⟨first ++ second, by rw [firstRest, secondRest, List.append_assoc],
      by rw [secondPosition, firstPosition, List.length_append, Nat.add_assoc]⟩

theorem Ahead.position_le {p q : Place} : p.Ahead q → p.position ≤ q.position
  | ⟨_, _, position⟩ => position ▸ Nat.le_add_right _ _

/-- No more characters go by than were to come. -/
theorem Ahead.advance_add_length {p q : Place} :
    p.Ahead q → q.position - p.position + q.rest.length = p.rest.length
  | ⟨gone, rest, position⟩ => by
    rw [rest, position, List.length_append]
    omega

theorem ahead_of_mem_take {test : Char → Bool} {p q : Place} (mem : q ∈ p.take test) :
    p.Ahead q := by
  unfold take at mem
  split at mem
  next c rest restEq =>
    split at mem
    · rw [List.mem_singleton.mp mem]
      exact ⟨[c], restEq, rfl⟩
    · simp at mem
  next => simp at mem

end Place

namespace Pattern

theorem ahead_of_mem_exactly {step : Place → List Place}
    (ahead : ∀ {p q}, q ∈ step p → p.Ahead q) (n : Nat) {p q : Place}
    (mem : q ∈ exactly step n p) : p.Ahead q := by
  induction n generalizing p with
  | zero =>
      rw [List.mem_singleton.mp mem]
      exact .refl p
  | succ n ih =>
      obtain ⟨r, toR, toQ⟩ := List.mem_flatMap.mp mem
      exact (ahead toR).trans (ih toQ)

/-- A repetition stays where it is, or takes one step and goes on if that took a character. -/
theorem mem_further_succ {step : Place → List Place} {eager : Bool} {limit : Nat} {p q : Place} :
    q ∈ further step eager (limit + 1) p ↔
      q = p ∨ ∃ r ∈ step p,
        q ∈ if p.position < r.position then further step eager limit r else [r] := by
  cases eager <;> simp [further, or_comm]

theorem ahead_of_mem_further {step : Place → List Place}
    (ahead : ∀ {p q}, q ∈ step p → p.Ahead q) (eager : Bool) (limit : Nat) {p q : Place}
    (mem : q ∈ further step eager limit p) : p.Ahead q := by
  induction limit generalizing p with
  | zero =>
      rw [List.mem_singleton.mp mem]
      exact .refl p
  | succ limit ih =>
      rcases mem_further_succ.mp mem with rfl | ⟨r, toR, toQ⟩
      · exact .refl q
      · split at toQ
        · exact (ahead toR).trans (ih toQ)
        · rw [List.mem_singleton.mp toQ]
          exact ahead toR

/-- Every way of a pattern leads ahead. -/
theorem ahead_of_mem_ways {blind : Bool} {pattern : Pattern} {p q : Place}
    (mem : q ∈ pattern.ways blind p) : p.Ahead q := by
  induction pattern generalizing p q with
  | nothing =>
      rw [List.mem_singleton.mp mem]
      exact .refl p
  | char c => exact Place.ahead_of_mem_take mem
  | oneOf members => exact Place.ahead_of_mem_take mem
  | any => exact Place.ahead_of_mem_take mem
  | boundary | atStart | atEnd | absent body ih =>
      simp only [ways] at mem
      split at mem
      · rw [List.mem_singleton.mp mem]
        exact .refl p
      · simp at mem
  | seq a b first second =>
      obtain ⟨r, toR, toQ⟩ := List.mem_flatMap.mp mem
      exact (first toR).trans (second toQ)
  | alt a b first second =>
      rcases List.mem_append.mp mem with mem | mem
      · exact first mem
      · exact second mem
  | group index body ih =>
      obtain ⟨r, toR, remembered⟩ := List.mem_map.mp mem
      have ahead := ih toR
      rw [← remembered]
      exact ahead
  | repeated least most eager body ih =>
      obtain ⟨r, toR, toQ⟩ := List.mem_flatMap.mp mem
      exact (ahead_of_mem_exactly ih least toR).trans (ahead_of_mem_further ih eager _ toQ)

/-- A search that only selects among the ways of a pattern finds one of them. -/
theorem mem_ways_of_seek {blind : Bool} {pattern : Pattern} {select : Onward} {p q : Place}
    (selects : ∀ {r s}, select r = some s → r = s) (found : pattern.seek blind select p = some q) :
    q ∈ pattern.ways blind p ∧ select q = some q := by
  rw [seek_eq] at found
  obtain ⟨r, mem, selected⟩ := List.exists_of_findSome?_eq_some found
  cases selects selected
  exact ⟨mem, selected⟩

/-- The one or two occurrences at a place: they begin there, and the first of two is empty. -/
theorem occurrencesAt_cases (blind : Bool) (pattern : Pattern) (p : Place) :
    pattern.occurrencesAt blind p = [] ∨
      (∃ q, p.Ahead q ∧ pattern.occurrencesAt blind p = [pattern.occurrenceBetween p q]) ∨
      ∃ q r, p.Ahead q ∧ p.Ahead r ∧ q.position = p.position ∧
        pattern.occurrencesAt blind p =
          [pattern.occurrenceBetween p q, pattern.occurrenceBetween p r] := by
  unfold occurrencesAt
  split
  next => exact .inl rfl
  next q found =>
    have aheadQ := ahead_of_mem_ways (mem_ways_of_seek (fun h => by simpa using h) found).1
    split
    next stays =>
      cases second : pattern.seek blind
          (fun r => if r.position = p.position then none else some r) p with
      | none => exact .inr (.inl ⟨q, aheadQ, rfl⟩)
      | some r =>
          have selects {s t : Place}
              (h : (if s.position = p.position then none else some s) = some t) : s = t := by
            split at h
            · simp at h
            · simpa using h
          have aheadR := ahead_of_mem_ways (mem_ways_of_seek selects second).1
          exact .inr (.inr ⟨q, r, aheadQ, aheadR, stays, rfl⟩)
    next => exact .inr (.inl ⟨q, aheadQ, rfl⟩)

theorem occurrenceBetween_liesIn (pattern : Pattern) (gone : List Char) {p q : Place}
    (position : p.position = gone.length) (ahead : p.Ahead q) :
    (pattern.occurrenceBetween p q).LiesIn (gone ++ p.rest) where
  start_le_stop := ahead.position_le
  stop_le_length := by
    have length := ahead.advance_add_length
    have le := ahead.position_le
    simp only [occurrenceBetween, List.length_append]
    omega
  text_eq := by simp [occurrenceBetween, position]

/-- What the sweep needs to know of the occurrences at one place. -/
structure BeginAt (gone rest : List Char) (found : List Occurrence) : Prop where
  inOrder : InOrder (gone ++ rest) found
  start_eq : ∀ m ∈ found, m.start = gone.length
  stop_le : ∀ m ∈ found, m.stop ≤ gone.length + taken found

theorem occurrencesAt_beginAt (blind : Bool) (pattern : Pattern) (gone : List Char) (p : Place)
    (position : p.position = gone.length) :
    BeginAt gone p.rest (pattern.occurrencesAt blind p) := by
  have liesIn {q : Place} (ahead : p.Ahead q) :=
    pattern.occurrenceBetween_liesIn gone position ahead
  have start {q : Place} : (pattern.occurrenceBetween p q).start = gone.length := position
  have stop {q : Place} (ahead : p.Ahead q) :
      (pattern.occurrenceBetween p q).stop ≤
        gone.length + ((pattern.occurrenceBetween p q).stop -
          (pattern.occurrenceBetween p q).start) := by
    have le := (liesIn ahead).start_le_stop
    rw [start] at le ⊢
    omega
  rcases pattern.occurrencesAt_cases blind p with
    none | ⟨q, ahead, one⟩ | ⟨q, r, aheadQ, aheadR, stays, two⟩
  · rw [none]
    exact ⟨⟨by simp, .nil⟩, by simp, by simp⟩
  · rw [one]
    exact ⟨⟨by simpa using liesIn ahead, by simp⟩, by simpa using start,
      by simpa [taken] using stop ahead⟩
  · rw [two]
    have empty : (pattern.occurrenceBetween p q).stop = gone.length := stays.trans position
    refine ⟨⟨by simpa using ⟨liesIn aheadQ, liesIn aheadR⟩, ?_⟩, by simpa using ⟨start, start⟩, ?_⟩
    · simp [empty, start]
    · simpa [taken, empty] using stop aheadR

/-- No more characters are taken at a place than are to come. -/
theorem taken_occurrencesAt_le (blind : Bool) (pattern : Pattern) (p : Place) :
    taken (pattern.occurrencesAt blind p) ≤ p.rest.length := by
  have short {q : Place} (ahead : p.Ahead q) :
      (pattern.occurrenceBetween p q).stop - (pattern.occurrenceBetween p q).start ≤
        p.rest.length := by
    have le := ahead.advance_add_length
    simp only [occurrenceBetween]
    omega
  rcases pattern.occurrencesAt_cases blind p with
    none | ⟨q, ahead, one⟩ | ⟨q, r, _, ahead, _, two⟩
  · simp [none, taken]
  · simpa [one, taken] using short ahead
  · simpa [two, taken] using short ahead

/-- Behind what the last occurrence took, the sweep keeps the order of the text. -/
theorem sweep_inOrder (blind : Bool) (pattern : Pattern) (gone rest : List Char) (skip : Nat)
    (previous : Option Char) :
    InOrder (gone ++ rest) (pattern.sweep blind skip previous gone.length rest) ∧
      ∀ m ∈ pattern.sweep blind skip previous gone.length rest, gone.length + skip ≤ m.start := by
  induction rest generalizing gone skip previous with
  | nil =>
      rw [sweep]
      split
      next skipped =>
        have here := occurrencesAt_beginAt blind pattern gone ⟨previous, gone.length, [], []⟩ rfl
        exact ⟨here.inOrder, fun m mem => by rw [here.start_eq m mem, skipped]; exact Nat.le_refl _⟩
      next => exact ⟨⟨by simp, .nil⟩, by simp⟩
  | cons c rest ih =>
      have later (skip : Nat) := ih (gone ++ [c]) skip (some c)
      simp only [List.append_assoc, List.singleton_append, List.length_append,
        List.length_singleton] at later
      rw [sweep]
      split
      next skipped =>
        have here :=
          occurrencesAt_beginAt blind pattern gone ⟨previous, gone.length, c :: rest, []⟩ rfl
        generalize pattern.occurrencesAt blind ⟨previous, gone.length, c :: rest, []⟩ = found
          at here ⊢
        obtain ⟨order, behind⟩ := later (taken found - 1)
        refine ⟨⟨?_, ?_⟩, ?_⟩
        · intro m mem
          exact (List.mem_append.mp mem).elim (here.inOrder.liesIn m) (order.liesIn m)
        · refine List.pairwise_append.mpr ⟨here.inOrder.apart, order.apart, fun m memM n memN => ?_⟩
          have stop := here.stop_le m memM
          have start := behind n memN
          omega
        · intro m mem
          rcases List.mem_append.mp mem with mem | mem
          · have start := here.start_eq m mem
            omega
          · have start := behind m mem
            omega
      next =>
        obtain ⟨order, behind⟩ := later (skip - 1)
        refine ⟨order, fun m mem => ?_⟩
        have start := behind m mem
        omega

/-- The occurrences of a pattern lie in the text from left to right without overlaps. -/
theorem occurrences_inOrder (blind : Bool) (pattern : Pattern) (text : List Char) :
    InOrder text (pattern.occurrences blind text) :=
  (sweep_inOrder blind pattern [] text 0 none).1

end Pattern

end FilmQuery
