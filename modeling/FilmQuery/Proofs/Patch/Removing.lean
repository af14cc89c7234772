/-
# Fewer fragments

Removing a fragment from a list touches only what the fragment spoke for
(`Patch.ofFragments_withoutFragment`).  A field that its kind cannot change stays as it was, and a
list holds what the other fragments name, so a number that was named twice stays.

The sides of ranges are told apart (`Bound`).  A bound comes from the last fragment that gives it
(`Patch.bound?_digest`).  As long as no content type is removed, every other fragment gives the
bounds it gave (`givers_filter`), so the last one to give a bound is still the last one.
-/
import FilmQuery.Proofs.Patch.Writers

namespace FilmQuery

/-- The numbers that a value is. -/
def Value.ids : Value → List Int
  | .numbers ns => ns
  | .number n => [n]
  | _ => []

/-- Items are the numbers that the fragments of a kind name, each once. -/
def AreNamed (kind : Kind) (fs : List Fragment) (items : List Value) : Prop :=
  ∃ ids : List Int, items = ids.map .number ∧ ids.Nodup ∧
    ∀ id, id ∈ ids ↔ ∃ f ∈ fs, f.kind = kind ∧ id ∈ f.value.ids

/-- The sides of a range. -/
inductive Side where
  | lower
  | upper
  deriving DecidableEq, Repr

/-- One side of a range of years. -/
def YearRange.side (range : YearRange) : Side → Option String
  | .lower => range.start
  | .upper => range.stop

/-- One side of a range of ratings. -/
def RatingRange.side (range : RatingRange) : Side → Option Number.Binary64
  | .lower => range.low
  | .upper => range.high

/-- The bounds that a patch can set. -/
inductive Bound where
  | dates (medium : Medium) (side : Side)
  | votes (side : Side)
  deriving DecidableEq, Repr

/-- A side of the years that a value is. -/
def Value.yearBound? (value : Value) (side : Side) : Option Json :=
  (value.years?.bind (·.side side)).map .str

/-- A side of the ratings that a value is. -/
def Value.ratingBound? (value : Value) (side : Side) : Option Json :=
  (value.ratings?.bind (·.side side)).map .real

/-- A bound of a patch, if it is set. -/
def Patch.bound? (patch : Patch) : Bound → Option Json
  | .dates medium side => (patch.dates medium).yearBound? side
  | .votes side => patch.voteAverage.ratingBound? side

/-- What a fragment gives for a bound. The bounds of a year are those of the dates of what is
searched for. -/
def Fragment.bound? (bound : Bound) (searched : String) (f : Fragment) : Option Json :=
  match bound with
  | .dates medium side =>
    if f.kind.isYear ∧ searched = medium.name then f.value.yearBound? side else none
  | .votes side => if f.kind.isRating then f.value.ratingBound? side else none

/-- The fragments that give a bound, each with what it gives. -/
def givers (bound : Bound) (search : Medium) (fs : List Fragment) : List (Fragment × Json) :=
  inContext search (fun searched f => (f.bound? bound searched).map (f, ·)) fs

section Lists

variable {search : Medium} {fs : List Fragment} {keep : Fragment → Bool}

theorem areNamed_distinctNumbers {kind : Kind} {ids : List Int}
    (named : ∀ id, id ∈ ids ↔ ∃ f ∈ fs, f.kind = kind ∧ id ∈ f.value.ids) :
    AreNamed kind fs (distinctNumbers ids) :=
  ⟨ids.eraseDups, rfl, nodup_eraseDups ids, fun id => List.mem_eraseDups.trans (named id)⟩

/-- Without some fragments that are no content types the others give the bounds that they gave. -/
theorem givers_filter (bound : Bound) (kept : ∀ f ∈ fs, f.kind = .contentType → keep f = true) :
    givers bound search (fs.filter keep) =
      (givers bound search fs).filter fun giver => keep giver.1 := by
  rw [givers, inContext_filter _ kept, givers, inContext, inContext, List.filter_filterMap]
  refine List.filterMap_congr fun x _ => ?_
  obtain ⟨f, i⟩ := x
  dsimp only
  cases f.bound? bound (searchedName search (fs.take i)) <;> cases stays : keep f <;>
    simp [Option.filter, stays]

theorem getLast?_filter {α : Type} {p : α → Bool} {xs : List α} {x : α}
    (last : xs.getLast? = some x) (kept : p x = true) : (xs.filter p).getLast? = some x := by
  obtain ⟨before, rfl⟩ := List.getLast?_eq_some_iff.mp last
  rw [List.filter_append, List.filter_singleton, kept, cond_true, List.getLast?_concat]

end Lists

section Sides

theorem map_lastSide {α β ρ : Type} (side : ρ → Option α) (shown : α → β) (ranges : List ρ) :
    (lastSide side ranges).map shown =
      (ranges.filterMap fun range => (side range).map shown).getLast? := by
  rw [lastSide, ← List.getLast?_map, List.map_filterMap]

/-- A side of some years together comes from the last of them that has it. -/
theorem yearBound?_together (ranges : List YearRange) (side : Side) :
    (YearRange.together ranges).yearBound? side =
      (ranges.filterMap fun range => (range.side side).map .str).getLast? := by
  by_cases none : ranges = []
  · subst none
    rfl
  · rw [YearRange.together, if_neg none]
    cases side with
    | lower => exact map_lastSide YearRange.start Json.str ranges
    | upper => exact map_lastSide YearRange.stop Json.str ranges

/-- A side of some ratings together comes from the last of them that has it. -/
theorem ratingBound?_together (ranges : List RatingRange) (side : Side) :
    (RatingRange.together ranges).ratingBound? side =
      (ranges.filterMap fun range => (range.side side).map .real).getLast? := by
  by_cases none : ranges = []
  · subst none
    rfl
  · rw [RatingRange.together, if_neg none]
    cases side with
    | lower => exact map_lastSide RatingRange.low Json.real ranges
    | upper => exact map_lastSide RatingRange.high Json.real ranges

end Sides

namespace Patch

variable {search : Medium} {fs : List Fragment}

/-- A bound comes from the last fragment that gives it. -/
theorem bound?_digest (bound : Bound) (search : Medium) (fs : List Fragment) :
    (digest search fs).bound? bound = ((givers bound search fs).map Prod.snd).getLast? := by
  rw [givers, inContext, List.map_filterMap]
  cases bound with
  | dates medium side =>
      rw [bound?, dates_digest, yearBound?_together, yearsOf, datedYears, List.filterMap_filterMap,
        List.filterMap_filterMap]
      congr 1
      refine List.filterMap_congr fun x _ => ?_
      obtain ⟨f, i⟩ := x
      dsimp only
      by_cases year : f.kind.isYear = true
      · cases value : f.value.years? <;>
          by_cases searched : searchedName search (fs.take i) = medium.name <;>
            simp [Fragment.bound?, Value.yearBound?, year, value, searched, Function.comp_def]
      · simp [Fragment.bound?, year]
  | votes side =>
      have ratings : (said Kind.isRating Value.ratings? fs).filterMap
          (fun range => (range.side side).map Json.real) =
            fs.filterMap fun f => if f.kind.isRating then f.value.ratingBound? side else none := by
        rw [said, List.filterMap_filterMap]
        refine List.filterMap_congr fun f _ => ?_
        by_cases rating : f.kind.isRating = true
        · cases value : f.value.ratings? <;> simp [Value.ratingBound?, rating, value]
        · simp [rating]
      change (RatingRange.together _).ratingBound? side = _
      rw [ratingBound?_together, ratings]
      conv_lhs => rw [← List.zipIdx_map_fst 0 fs, List.filterMap_map]
      congr 1
      refine List.filterMap_congr fun x _ => ?_
      simp [Fragment.bound?, Function.comp_def]

theorem mem_said {α : Type} {of : Kind → Bool} {read : Value → Option α} {x : α} :
    x ∈ said of read fs ↔ ∃ f ∈ fs, of f.kind = true ∧ read f.value = some x := by
  simp only [said, List.mem_filterMap, Option.ite_none_right_eq_some]

/-- The providers of a patch are those that fragments name. -/
theorem areNamed_providers (search : Medium) (typed : ∀ f ∈ fs, f.isTyped = true) :
    AreNamed .provider fs (digest search fs).watchProviders := by
  refine areNamed_distinctNumbers fun id => ?_
  rw [List.mem_flatten]
  constructor
  · rintro ⟨ns, heard, mem⟩
    obtain ⟨f, inList, kind, numbers⟩ := mem_said.mp heard
    rw [Value.numbers?_eq_some] at numbers
    exact ⟨f, inList, of_decide_eq_true kind, by rwa [numbers]⟩
  · rintro ⟨f, inList, kind, mem⟩
    have numbers : f.value.numbers?.isSome = true := by
      simpa only [Fragment.isTyped, kind] using typed f inList
    obtain ⟨ns, read⟩ := Option.isSome_iff_exists.mp numbers
    rw [Value.numbers?_eq_some.mp read] at mem
    exact ⟨ns, mem_said.mpr ⟨f, inList, decide_eq_true kind, read⟩, mem⟩

/-- The genres of a patch are those that fragments name. -/
theorem areNamed_genres {kind : Kind} (genre : kind = .genre ∨ kind = .genreExclude)
    (typed : ∀ f ∈ fs, f.isTyped = true) :
    AreNamed kind fs (distinctNumbers (said (· = kind) Value.number? fs)) := by
  refine areNamed_distinctNumbers fun id => ?_
  rw [mem_said]
  refine exists_congr fun f => and_congr_right fun inList => ?_
  rw [decide_eq_true_iff]
  refine and_congr_right fun own => ?_
  have number : f.value.number?.isSome = true := by
    rcases genre with rfl | rfl <;> simpa only [Fragment.isTyped, own] using typed f inList
  obtain ⟨n, read⟩ := Option.isSome_iff_exists.mp number
  rw [read, Value.number?_eq_some.mp read, Option.some_inj]
  exact eq_comm.trans List.mem_singleton.symm

/-- Removing fragments touches only what they spoke for. A field that their kinds cannot change
stays as it was. The lists hold what the other fragments name, each number once. And unless a
content type is removed, every bound that was given last by another fragment stays what this
fragment gave. -/
theorem ofFragments_withoutFragment {id : FragmentId} {before after : Patch}
    (typed : ∀ f ∈ fs, f.isTyped = true) (whole : ofFragments search fs = .ok before)
    (left : ofFragments search (withoutFragment fs id) = .ok after) :
    (∀ field, (∀ f ∈ fs, f.id = id → field ∉ f.kind.writes) →
        after.setting? field = before.setting? field) ∧
      AreNamed .provider (withoutFragment fs id) after.watchProviders ∧
      AreNamed .genre (withoutFragment fs id) after.genres ∧
      AreNamed .genreExclude (withoutFragment fs id) after.withoutGenres ∧
      ((∀ f ∈ fs, f.id = id → f.kind ≠ .contentType) →
        ∀ bound f given, (givers bound search fs).getLast? = some (f, given) → f.id ≠ id →
          before.bound? bound = some given ∧ after.bound? bound = some given) := by
  have typedLeft : ∀ f ∈ withoutFragment fs id, f.isTyped = true :=
    fun f mem => typed f (List.mem_filter.mp mem).1
  cases eq_digest_of_ofFragments typed whole
  cases eq_digest_of_ofFragments typedLeft left
  -- What is not removed is kept.
  have stays {P : Fragment → Prop} (spared : ∀ f ∈ fs, f.id = id → ¬ P f) :
      ∀ f ∈ fs, P f → (f.id != id) = true :=
    fun f mem holds => bne_iff_ne.mpr fun same => spared f mem same holds
  refine ⟨?_, areNamed_providers search typedLeft, areNamed_genres (.inl rfl) typedLeft,
    areNamed_genres (.inr rfl) typedLeft, ?_⟩
  · intro field untouched
    exact setting?_digest_filter (stays untouched)
  · intro noContent bound f given last other
    have lastLeft : (givers bound search (withoutFragment fs id)).getLast? = some (f, given) := by
      rw [withoutFragment, givers_filter bound (stays noContent)]
      exact getLast?_filter last (bne_iff_ne.mpr other)
    rw [bound?_digest, bound?_digest, List.getLast?_map, List.getLast?_map, last, lastLeft]
    exact ⟨rfl, rfl⟩

/-- A rating, and comedies twice. -/
def ratedComedies : List Fragment :=
  [{ id := .named "rated", kind := .ratingMin, value := .ratings ⟨some (.ofInt 7), none⟩,
      label := "Rating: 7+", source := "rated above 7" },
    { id := .named "comedy", kind := .genre, value := .number 35,
      label := "Genre: Comedy", source := "comedy" },
    { id := .named "comedies", kind := .genre, value := .number 35,
      label := "Genre: Comedies", source := "comedies" }]

/-- Without the first of two genres that are the same the genre stays, and so does the rating. -/
theorem ofFragments_withoutFragment_comedy :
    let left := withoutFragment ratedComedies (.named "comedy")
    (∀ f ∈ ratedComedies, f.isTyped = true) ∧
      ∃ before after, ofFragments .movie ratedComedies = .ok before ∧
        ofFragments .movie left = .ok after ∧
        after.setting? .voteAverage = before.setting? .voteAverage ∧
        AreNamed .genre left after.genres ∧
        before.bound? (.votes .lower) = some (.real (.ofInt 7)) ∧
        after.bound? (.votes .lower) = some (.real (.ofInt 7)) := by
  have typed : ∀ f ∈ ratedComedies, f.isTyped = true := by decide
  have removed :=
    @ofFragments_withoutFragment .movie ratedComedies (.named "comedy") _ _ typed rfl rfl
  obtain ⟨frame, _, genres, _, bounds⟩ := removed
  exact ⟨typed, _, _, rfl, rfl, frame .voteAverage (by decide), genres,
    bounds (by decide) (.votes .lower) ratedComedies[0] _ rfl (by decide)⟩

end Patch

end FilmQuery
