/-
# Patterns that ignore case

Where case is ignored, a pattern cannot tell a text from the same text without the case of its Latin
letters: it has the same ways in both (`ways_uncased`), so it has the same occurrences
(`occurrences_uncased`).  They differ only in the letters of what was met.
-/
import FilmQuery.Proofs.Text.Uncased
import FilmQuery.Pattern.Occurrence

namespace FilmQuery

open Text

/-- What a group has met, without case. -/
def Capture.uncased (capture : Capture) : Capture :=
  { capture with opened := Text.uncased capture.opened }

/-- The same place in the text without case. -/
def Place.uncased (p : Place) : Place :=
  ⟨p.previous.map Char.toLower, p.position, Text.uncased p.rest, p.captures.map Capture.uncased⟩

/-- The same occurrence in the text without case. -/
def Occurrence.uncased (m : Occurrence) : Occurrence :=
  { m with
    text := Text.uncased m.text
    captures := m.captures.map fun (index, text) => (index, Text.uncased text) }

namespace Place

variable (p : Place)

@[simp]
theorem position_uncased : p.uncased.position = p.position := rfl

@[simp]
theorem rest_uncased : p.uncased.rest = Text.uncased p.rest := rfl

@[simp]
theorem isBoundary_uncased : p.uncased.isBoundary = p.isBoundary := by
  simp only [isBoundary, uncased, Text.uncased, List.head?_map, Option.any_map, isWord_toLower]

theorem take_uncased (test : Char → Bool) (blind : ∀ c, test c.toLower = test c) :
    p.uncased.take test = (p.take test).map Place.uncased := by
  unfold take
  rw [rest_uncased]
  cases p.rest with
  | nil => rfl
  | cons c rest =>
      rw [Text.uncased, List.map_cons]
      simp only [blind]
      split <;> rfl

end Place

namespace Pattern

variable {step : Place → List Place}

theorem isIn_toLower (members : List Member) (c : Char) :
    isIn true members c.toLower = isIn true members c := by
  unfold isIn
  congr 1
  funext member
  cases member with
  | char d => simp
  | ofClass k => cases k <;> simp [CharClass.has]

theorem exactly_uncased (alike : ∀ p : Place, step p.uncased = (step p).map Place.uncased) (n : Nat)
    (p : Place) : exactly step n p.uncased = (exactly step n p).map Place.uncased := by
  induction n generalizing p with
  | zero => rfl
  | succ n ih =>
      rw [exactly, alike, List.flatMap_map, exactly, List.map_flatMap]
      congr 1
      funext q
      exact ih q

theorem further_uncased (alike : ∀ p : Place, step p.uncased = (step p).map Place.uncased)
    (eager : Bool) (limit : Nat) (p : Place) :
    further step eager limit p.uncased = (further step eager limit p).map Place.uncased := by
  induction limit generalizing p with
  | zero => rfl
  | succ limit ih =>
      have longer : ((step p.uncased).flatMap fun q =>
            if p.uncased.position < q.position then further step eager limit q else [q]) =
          ((step p).flatMap fun q =>
            if p.position < q.position then further step eager limit q else [q]).map
              Place.uncased := by
        rw [alike, List.flatMap_map, List.map_flatMap]
        congr 1
        funext q
        rw [Place.position_uncased, Place.position_uncased, apply_ite (List.map Place.uncased), ih]
        rfl
      rw [further, longer, further]
      cases eager <;> simp

/-- A pattern that ignores case has the same ways in a text without case. -/
theorem ways_uncased (pattern : Pattern) (p : Place) :
    pattern.ways true p.uncased = (pattern.ways true p).map Place.uncased := by
  induction pattern generalizing p with
  | nothing => rfl
  | char c => exact p.take_uncased _ fun d => by simp
  | oneOf members => exact p.take_uncased _ (isIn_toLower members)
  | any => exact p.take_uncased _ (apply_toLower (· != '\n') (by decide))
  | boundary =>
      rw [ways, Place.isBoundary_uncased, ways, apply_ite (List.map Place.uncased)]
      rfl
  | atStart =>
      rw [ways, Place.position_uncased, ways, apply_ite (List.map Place.uncased)]
      rfl
  | atEnd =>
      have newline : ∀ c : Char, (c.toLower == '\n') = (c == '\n') :=
        apply_toLower (· == '\n') (by decide)
      have same : (p.uncased.rest = [] ∨ p.uncased.rest = ['\n']) ↔
          (p.rest = [] ∨ p.rest = ['\n']) := by
        rw [Place.rest_uncased, Text.uncased]
        rcases p.rest with _ | ⟨c, _ | ⟨d, rest⟩⟩
        · simp
        · simpa using newline c
        · simp
      simp only [ways, same]
      rw [apply_ite (List.map Place.uncased)]
      rfl
  | seq a b first second =>
      rw [ways, first, List.flatMap_map, ways, List.map_flatMap]
      congr 1
      funext q
      exact second q
  | alt a b first second => rw [ways, ways, first, second, List.map_append]
  | group index body ih =>
      rw [ways, ih, List.map_map, ways, List.map_map]
      rfl
  | absent body ih =>
      rw [ways, ih, List.isEmpty_map, ways, apply_ite (List.map Place.uncased)]
      rfl
  | repeated least most eager body ih =>
      rw [ways, exactly_uncased ih, List.flatMap_map, ways, List.map_flatMap]
      congr 1
      funext q
      have limit : allowance least most q.uncased = allowance least most q := by
        cases most <;> simp [allowance]
      rw [limit, further_uncased ih]

theorem occurrenceBetween_uncased (pattern : Pattern) (p q : Place) :
    pattern.occurrenceBetween p.uncased q.uncased = (pattern.occurrenceBetween p q).uncased := by
  simp [occurrenceBetween, Occurrence.uncased, Place.uncased, Capture.uncased, Capture.text,
    Text.uncased, List.map_take]

theorem occurrencesAt_uncased (pattern : Pattern) (p : Place) :
    pattern.occurrencesAt true p.uncased =
      (pattern.occurrencesAt true p).map Occurrence.uncased := by
  have found (onward : Onward)
      (alike : ∀ q : Place, onward q.uncased = (onward q).map Place.uncased) :
      pattern.seek true onward p.uncased = (pattern.seek true onward p).map Place.uncased := by
    rw [seek_eq, seek_eq, ways_uncased, List.findSome?_map, List.map_findSome?]
    congr 1
    funext q
    exact alike q
  have taking := found (fun r => if r.position = p.position then none else some r) fun q => by
    rw [Place.position_uncased]
    split <;> rfl
  rw [occurrencesAt, found some fun _ => rfl, occurrencesAt, Place.position_uncased, taking]
  cases pattern.seek true some p with
  | none => rfl
  | some q =>
      have between : pattern.occurrenceBetween p.uncased ∘ Place.uncased =
          Occurrence.uncased ∘ pattern.occurrenceBetween p :=
        funext (occurrenceBetween_uncased pattern p)
      simp only [Option.map_some, Place.position_uncased, occurrenceBetween_uncased, Option.map_map,
        between]
      split
      · simp [Option.toList_map]
      · simp

theorem sweep_uncased (pattern : Pattern) (skip : Nat) (previous : Option Char) (position : Nat)
    (text : List Char) :
    pattern.sweep true skip (previous.map Char.toLower) position (Text.uncased text) =
      (pattern.sweep true skip previous position text).map Occurrence.uncased := by
  have taken (found : List Occurrence) : taken (found.map Occurrence.uncased) = taken found := by
    rw [Pattern.taken, List.getLast?_map, Pattern.taken]
    cases found.getLast? <;> rfl
  induction text generalizing skip previous position with
  | nil =>
      rw [Text.uncased, List.map_nil, sweep, sweep]
      split
      · exact occurrencesAt_uncased pattern ⟨previous, position, [], []⟩
      · rfl
  | cons c rest ih =>
      have here := occurrencesAt_uncased pattern ⟨previous, position, c :: rest, []⟩
      have later (skip : Nat) := ih skip (some c) (position + 1)
      simp only [Place.uncased, Text.uncased, List.map_cons, List.map_nil,
        Option.map_some] at here later
      rw [Text.uncased, List.map_cons, sweep, sweep]
      split
      · simp only [here, taken, later, List.map_append]
      · exact later _

/-- A pattern that ignores case occurs at the same places in a text without case. -/
theorem occurrences_uncased (pattern : Pattern) (text : List Char) :
    pattern.occurrences true (Text.uncased text) =
      (pattern.occurrences true text).map Occurrence.uncased :=
  pattern.sweep_uncased 0 none 0 text

end Pattern

end FilmQuery
