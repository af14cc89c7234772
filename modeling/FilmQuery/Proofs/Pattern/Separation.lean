/-
# Occurrences on the two sides of a separator

A character that a pattern cannot take, and that is no part of a word, cuts the occurrences of the
pattern in two: those of the text before it and those of the text behind it, each found as if the
other side were not there (`occurrences_append`).
-/
import FilmQuery.Proofs.Pattern.Extent

namespace FilmQuery

open Text (isWord)
open Place (Alike)

/-- An occurrence some characters further on. -/
def Occurrence.moved (distance : Nat) (m : Occurrence) : Occurrence :=
  { m with start := m.start + distance, stop := m.stop + distance }

@[simp]
theorem Occurrence.moved_zero : Occurrence.moved 0 = id := rfl

namespace Pattern

variable {blind : Bool} {pattern : Pattern} {distance : Nat} {tail : List Char} {p q : Place}

theorem occurrenceBetween_alike {p' q' : Place} (opened : Alike distance tail p q)
    (closed : Alike distance tail p' q') (ahead : p.Ahead p') :
    pattern.occurrenceBetween q q' = (pattern.occurrenceBetween p p').moved distance := by
  have length := ahead.advance_add_length
  have text : (p.rest ++ tail).take (p'.position - p.position) =
      p.rest.take (p'.position - p.position) :=
    List.take_append_of_le_length (by omega)
  have said := closed.said
  simp only [Place.said] at said
  simp only [occurrenceBetween, Occurrence.moved, opened.position, closed.position, opened.rest,
    Nat.add_sub_add_right, text, said]

theorem findSome?_rel {related : Place → Place → Prop} (select select' : Onward)
    {places places' : List Place} (alike : List.Forall₂ related places places')
    (selects : ∀ r s, related r s → Option.Rel related (select r) (select' s)) :
    Option.Rel related (places.findSome? select) (places'.findSome? select') := by
  induction alike with
  | nil => exact .none
  | @cons r s rest rest' head _ ih =>
      rw [List.findSome?_cons, List.findSome?_cons]
      have both := selects r s head
      generalize select r = first, select' s = second at both
      cases both with
      | some both => exact .some both
      | none => exact ih

/-- At alike places the same occurrences begin. -/
theorem occurrencesAt_alike (ends : EndsAt blind pattern tail) (alike : Alike distance tail p q) :
    pattern.occurrencesAt blind q =
      (pattern.occurrencesAt blind p).map (Occurrence.moved distance) := by
  have ways := (List.forall₂_and_left _ _).mpr
    ⟨fun r (mem : r ∈ pattern.ways blind p) => ahead_of_mem_ways mem, ways_alike ends alike⟩
  have preferred := findSome?_rel some some ways fun _ _ both => .some both
  have taking := findSome?_rel
    (fun r => if r.position = p.position then none else some r)
    (fun s => if s.position = q.position then none else some s) ways
    fun r s both => by
      simp only [both.2.position, alike.position, Nat.add_right_cancel_iff]
      split
      · exact .none
      · exact .some both
  rw [← seek_eq, ← seek_eq] at preferred taking
  unfold occurrencesAt
  generalize pattern.seek blind some p = first, pattern.seek blind some q = first' at preferred
  cases preferred with
  | none => rfl
  | @some r s both =>
      simp only [both.2.position, alike.position, Nat.add_right_cancel_iff,
        occurrenceBetween_alike alike both.2 both.1]
      split
      · rw [List.map_cons]
        simp only [alike.position] at taking
        congr 1
        revert taking
        generalize pattern.seek blind _ p = second, pattern.seek blind _ q = second'
        intro taking
        cases taking with
        | none => rfl
        | some both =>
            simp only [Option.map_some, Option.toList_some, List.map_cons, List.map_nil,
              occurrenceBetween_alike alike both.2 both.1]
      · rfl

theorem taken_map_moved (found : List Occurrence) :
    taken (found.map (Occurrence.moved distance)) = taken found := by
  unfold taken
  rw [List.getLast?_map]
  cases found.getLast? with
  | none => rfl
  | some m => exact Nat.add_sub_add_right _ _ _

/-- A text is swept in the same way wherever it begins. -/
theorem sweep_moved (inner : pattern.isInner = true) (skip : Nat) {previous previous' : Option Char}
    (alike : previous'.any isWord = previous.any isWord) (position distance : Nat)
    (text : List Char) :
    pattern.sweep blind skip previous' (position + distance) text =
      (pattern.sweep blind skip previous position text).map (Occurrence.moved distance) := by
  have ends : EndsAt blind pattern [] := .nil inner
  have here (text : List Char) {previous previous' : Option Char}
      (alike : previous'.any isWord = previous.any isWord) (position : Nat) :
      pattern.occurrencesAt blind ⟨previous', position + distance, text, []⟩ =
        (pattern.occurrencesAt blind ⟨previous, position, text, []⟩).map
          (Occurrence.moved distance) :=
    occurrencesAt_alike ends ⟨alike, rfl, (List.append_nil _).symm, rfl⟩
  induction text generalizing skip previous previous' position with
  | nil =>
      simp only [sweep, here [] alike]
      split <;> rfl
  | cons c rest ih =>
      simp only [sweep, here _ alike, taken_map_moved, Nat.add_right_comm position distance 1,
        ih _ rfl]
      split
      · rw [List.map_append]
      · rfl

/-- The sweep of a text that a pattern cannot take whole: what comes before the separator is swept
as if the text ended there, and what comes behind it is swept afterwards. -/
theorem sweep_append {c : Char} {right : List Char} (ends : EndsAt blind pattern (c :: right))
    (skip : Nat) (previous : Option Char) (position : Nat) (left : List Char)
    (skipped : skip ≤ left.length) :
    pattern.sweep blind skip previous position (left ++ c :: right) =
      pattern.sweep blind skip previous position left ++
        pattern.sweep blind 0 (some c) (position + left.length + 1) right := by
  have here (text : List Char) (previous : Option Char) (position : Nat) :
      pattern.occurrencesAt blind ⟨previous, position, text ++ c :: right, []⟩ =
        pattern.occurrencesAt blind ⟨previous, position, text, []⟩ := by
    have alike : Alike 0 (c :: right) ⟨previous, position, text, []⟩
        ⟨previous, position, text ++ c :: right, []⟩ := ⟨rfl, rfl, rfl, rfl⟩
    have same := occurrencesAt_alike ends alike
    rwa [Occurrence.moved_zero, List.map_id] at same
  induction left generalizing skip previous position with
  | nil =>
      obtain rfl : skip = 0 := Nat.le_zero.mp skipped
      have still : taken (pattern.occurrencesAt blind ⟨previous, position, [], []⟩) = 0 :=
        Nat.le_zero.mp (taken_occurrencesAt_le blind pattern _)
      have atEnd := here [] previous position
      rw [List.nil_append] at atEnd ⊢
      simp [sweep, atEnd, still]
  | cons d left ih =>
      have onward : position + 1 + left.length + 1 = position + (d :: left).length + 1 := by
        simp only [List.length_cons]
        omega
      have found := here (d :: left) previous position
      rw [List.cons_append] at found ⊢
      rw [sweep, sweep]
      split
      · have within := taken_occurrencesAt_le blind pattern ⟨previous, position, d :: left, []⟩
        simp only [List.length_cons] at within
        simp only [found]
        rw [ih _ _ _ (by omega), onward, List.append_assoc]
      · rw [ih _ _ _ (by simp only [List.length_cons] at skipped; omega), onward]

/-- The occurrences in a text with a separator are those before it and those behind it. -/
theorem occurrences_append {c : Char} {left right : List Char}
    (ends : EndsAt blind pattern (c :: right)) :
    pattern.occurrences blind (left ++ c :: right) =
      pattern.occurrences blind left ++
        (pattern.occurrences blind right).map (Occurrence.moved (left.length + 1)) := by
  have fresh : (some c).any isWord = (none : Option Char).any isWord := ends.wordless
  rw [occurrences, sweep_append ends 0 none 0 left (Nat.zero_le _), Nat.zero_add, occurrences,
    occurrences, ← sweep_moved ends.inner 0 fresh 0, Nat.zero_add]

end Pattern

end FilmQuery
