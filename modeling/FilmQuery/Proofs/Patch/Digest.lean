/-
# What fragments come to

The patch of some fragments can be read off them without merging one after another.  Words come from
the last fragment that has one, each side of a range from the last fragment that has this side, and
lists hold what the fragments name, each item once and where it was named first.  A year counts for
the dates of what the fragments in front of it name.

This needs values of the form that their kinds ask for (`Fragment.isTyped`).  The step is one more
fragment at the end (`Patch.add_digest`), the run is all of them (`Patch.ofFragmentsNoting_eq`).
The only way to fail is a year that has no dates to go to.  What was searched for at that year is no
part of the error, so the merging is told again in a form that notes it (`Patch.ofFragmentsNoting`).
-/
import FilmQuery.Patch.Basic
import Mathlib.Data.List.Basic
import Mathlib.Data.List.Induction

namespace FilmQuery

namespace Value

/-- The word that a value is. -/
def text? : Value → Option String
  | .text s => some s
  | _ => none

/-- The number that a value is. -/
def number? : Value → Option Int
  | .number n => some n
  | _ => none

/-- The numbers that a value is. -/
def numbers? : Value → Option (List Int)
  | .numbers ns => some ns
  | _ => none

/-- The years that a value is. -/
def years? : Value → Option YearRange
  | .years range => some range
  | _ => none

/-- The ratings that a value is. -/
def ratings? : Value → Option RatingRange
  | .ratings range => some range
  | _ => none

variable {value : Value}

theorem text?_eq_some {s : String} : value.text? = some s ↔ value = .text s := by
  unfold text?
  split <;> simp_all

theorem number?_eq_some {n : Int} : value.number? = some n ↔ value = .number n := by
  unfold number?
  split <;> simp_all

theorem numbers?_eq_some {ns : List Int} : value.numbers? = some ns ↔ value = .numbers ns := by
  unfold numbers?
  split <;> simp_all

theorem years?_eq_some {range : YearRange} : value.years? = some range ↔ value = .years range := by
  unfold years?
  split <;> simp_all

theorem ratings?_eq_some {range : RatingRange} :
    value.ratings? = some range ↔ value = .ratings range := by
  unfold ratings?
  split <;> simp_all

end Value

/-- Whether the value of a fragment has the form that its kind asks for. -/
def Fragment.isTyped (f : Fragment) : Bool :=
  match f.kind with
  | .contentType | .country => f.value.text?.isSome
  | .yearFrom | .yearTo | .yearExact | .yearRange => f.value.years?.isSome
  | .ratingMin | .ratingMax | .ratingFloor | .ratingRange => f.value.ratings?.isSome
  | .provider => f.value.numbers?.isSome
  | .genre | .genreExclude => f.value.number?.isSome

theorem Fragment.exists_years {f : Fragment} (typed : f.isTyped = true)
    (year : f.kind.isYear = true) : ∃ range, f.value = .years range := by
  have years : f.value.years?.isSome = true := by
    unfold isTyped at typed
    cases kind : f.kind <;> simp_all [Kind.isYear]
  obtain ⟨range, value⟩ := Option.isSome_iff_exists.mp years
  exact ⟨range, Value.years?_eq_some.mp value⟩

theorem Fragment.exists_ratings {f : Fragment} (typed : f.isTyped = true)
    (rating : f.kind.isRating = true) : ∃ range, f.value = .ratings range := by
  have ratings : f.value.ratings?.isSome = true := by
    unfold isTyped at typed
    cases kind : f.kind <;> simp_all [Kind.isRating]
  obtain ⟨range, value⟩ := Option.isSome_iff_exists.mp ratings
  exact ⟨range, Value.ratings?_eq_some.mp value⟩

/-- What the fragments of some kinds say, in their order. -/
def said {α : Type} (of : Kind → Bool) (read : Value → Option α) (fs : List Fragment) : List α :=
  fs.filterMap fun f => if of f.kind then read f.value else none

/-- The name of what is searched for behind some fragments: the last one that they give, unless it
is empty, or else the medium of the search. -/
def searchedName (search : Medium) (fs : List Fragment) : String :=
  match (said (· = .contentType) Value.text? fs).getLast? with
  | some name => if name = "" then search.name else name
  | none => search.name

/-- What fragments give, each read with the name of what is searched for where it stands. -/
def inContext {β : Type} (search : Medium) (read : String → Fragment → Option β)
    (fs : List Fragment) : List β :=
  fs.zipIdx.filterMap fun (f, i) => read (searchedName search (fs.take i)) f

/-- The years that fragments speak about, each with the name of what is searched for where it
stands. -/
def datedYears (search : Medium) (fs : List Fragment) : List (String × YearRange) :=
  fs.zipIdx.filterMap fun (f, i) =>
    (if f.kind.isYear then f.value.years? else none).map (searchedName search (fs.take i), ·)

/-- The years that go to the dates of a medium. -/
def yearsOf (medium : Medium) (dated : List (String × YearRange)) : List YearRange :=
  dated.filterMap fun (name, range) => if name = medium.name then some range else none

/-- One side of some ranges: that of the last one that has it. -/
def lastSide {α ρ : Type} (side : ρ → Option α) (ranges : List ρ) : Option α :=
  (ranges.filterMap side).getLast?

/-- The dates that some years come to. -/
def YearRange.together (ranges : List YearRange) : Value :=
  if ranges = [] then .nothing
  else .years ⟨lastSide YearRange.start ranges, lastSide YearRange.stop ranges⟩

/-- The rating that some ratings come to. -/
def RatingRange.together (ranges : List RatingRange) : Value :=
  if ranges = [] then .nothing
  else .ratings ⟨lastSide RatingRange.low ranges, lastSide RatingRange.high ranges⟩

/-- The last of some words. -/
def lastWord (words : List String) : Value := (words.getLast?.map .text).getD .nothing

/-- Numbers as items, each once. -/
def distinctNumbers (ns : List Int) : List Value := ns.eraseDups.map .number

/-- What the fragments of a search come to. -/
def Patch.digest (search : Medium) (fs : List Fragment) : Patch where
  contentType := lastWord (said (· = .contentType) Value.text? fs)
  primaryReleaseDate := YearRange.together (yearsOf .movie (datedYears search fs))
  firstAirDate := YearRange.together (yearsOf .tv (datedYears search fs))
  voteAverage := RatingRange.together (said Kind.isRating Value.ratings? fs)
  watchProviders := distinctNumbers (said (· = .provider) Value.numbers? fs).flatten
  genres := distinctNumbers (said (· = .genre) Value.number? fs)
  withoutGenres := distinctNumbers (said (· = .genreExclude) Value.number? fs)
  watchRegion := lastWord (said (· = .country) Value.text? fs)

section Lists

theorem said_append {α : Type} (of : Kind → Bool) (read : Value → Option α)
    (fs gs : List Fragment) : said of read (fs ++ gs) = said of read fs ++ said of read gs :=
  List.filterMap_append

@[simp]
theorem said_concat {α : Type} (of : Kind → Bool) (read : Value → Option α) (fs : List Fragment)
    (f : Fragment) :
    said of read (fs ++ [f]) =
      said of read fs ++ (if of f.kind then read f.value else none).toList := by
  rw [said_append]
  rfl

@[simp]
theorem inContext_concat {β : Type} (search : Medium) (read : String → Fragment → Option β)
    (fs : List Fragment) (f : Fragment) :
    inContext search read (fs ++ [f]) =
      inContext search read fs ++ (read (searchedName search fs) f).toList := by
  rw [inContext, List.zipIdx_append, List.filterMap_append]
  congr 1
  · refine List.filterMap_congr fun x mem => ?_
    have inRange : x.2 < fs.length := by simpa using List.snd_lt_of_mem_zipIdx mem
    simp only [List.take_append_of_le_length (Nat.le_of_lt inRange)]
  · simp only [Nat.zero_add, List.zipIdx_singleton, List.filterMap_cons, List.take_left]
    cases read (searchedName search fs) f <;> rfl

theorem datedYears_eq_inContext (search : Medium) (fs : List Fragment) :
    datedYears search fs =
      inContext search
        (fun searched f => (if f.kind.isYear then f.value.years? else none).map (searched, ·)) fs :=
  rfl

@[simp]
theorem datedYears_concat (search : Medium) (fs : List Fragment) (f : Fragment) :
    datedYears search (fs ++ [f]) = datedYears search fs ++
      ((if f.kind.isYear then f.value.years? else none).map
        (searchedName search fs, ·)).toList := by
  rw [datedYears_eq_inContext, inContext_concat, datedYears_eq_inContext]

theorem lastSide_concat {α ρ : Type} (side : ρ → Option α) (ranges : List ρ) (range : ρ) :
    lastSide side (ranges ++ [range]) = laterSide (lastSide side ranges) (side range) := by
  rw [lastSide, List.filterMap_append, List.getLast?_append, laterSide]
  cases last : side range <;> simp [lastSide, last]

theorem lastWord_concat (words : List String) (word : String) :
    lastWord (words ++ [word]) = .text word := by
  simp [lastWord]

theorem mergeYears_together (ranges : List YearRange) (range : YearRange) :
    mergeYears (YearRange.together ranges) (.years range) =
      .ok (YearRange.together (ranges ++ [range])) := by
  by_cases none : ranges = []
  · subst none
    simp [YearRange.together, mergeYears, lastSide]
  · simp [YearRange.together, none, mergeYears, YearRange.merge, lastSide_concat]

theorem mergeRatings_together (ranges : List RatingRange) (range : RatingRange) :
    mergeRatings (RatingRange.together ranges) (.ratings range) =
      .ok (RatingRange.together (ranges ++ [range])) := by
  by_cases none : ranges = []
  · subst none
    simp [RatingRange.together, mergeRatings, lastSide]
  · simp [RatingRange.together, none, mergeRatings, RatingRange.merge, lastSide_concat]

theorem same_number (m n : Int) : Value.same (.number m) (.number n) = (m == n) := by
  simp [Value.same, Json.same, Json.sameLeaf, Json.wholeNumber?]

/-- An item at the end is kept if it is new. -/
theorem eraseDups_concat {α : Type} [DecidableEq α] (xs : List α) (x : α) :
    (xs ++ [x]).eraseDups = if x ∈ xs then xs.eraseDups else xs.eraseDups ++ [x] := by
  rw [List.eraseDups_append]
  by_cases inside : x ∈ xs <;> simp [inside, List.removeAll, List.eraseDups_cons]

/-- Adding new items to distinct ones keeps each where it came first. -/
theorem addNew_distinctNumbers (old new : List Int) :
    addNew Value.same (distinctNumbers old) (new.map .number) = distinctNumbers (old ++ new) := by
  induction new generalizing old with
  | nil => rw [List.append_nil, List.map_nil, addNew, List.foldl_nil]
  | cons n new ih =>
      have present : (distinctNumbers old).any (Value.same · (.number n)) = decide (n ∈ old) := by
        rw [Bool.eq_iff_iff]
        simp [distinctNumbers, same_number]
      have one : (if n ∈ old then distinctNumbers old else distinctNumbers old ++ [.number n]) =
          distinctNumbers (old ++ [n]) := by
        rw [distinctNumbers, distinctNumbers, eraseDups_concat]
        by_cases inOld : n ∈ old <;> simp [inOld]
      rw [List.append_cons, ← ih, ← one, List.map_cons, addNew, List.foldl_cons, present]
      simp only [decide_eq_true_eq, addNew]

end Lists

namespace Medium

theorem ofName?_name (medium : Medium) : ofName? medium.name = some medium := by
  cases medium <;> rfl

theorem ofName?_eq_some {name : String} {medium : Medium} :
    ofName? name = some medium ↔ name = medium.name := by
  refine ⟨fun named => ?_, fun same => same ▸ ofName?_name medium⟩
  unfold ofName? at named
  split at named
  next same => exact same.trans (congrArg Medium.name (Option.some.inj named))
  · split at named
    next same => exact same.trans (congrArg Medium.name (Option.some.inj named))
    next => simp at named

theorem ofName?_eq_none {name : String} :
    ofName? name = none ↔ name ≠ movie.name ∧ name ≠ tv.name := by
  unfold ofName?
  split_ifs <;> simp_all [Medium.name]

end Medium

namespace Patch

variable {search : Medium} {fs : List Fragment} {f : Fragment}

/-- The patch of some fragments knows what is searched for behind them. -/
theorem datedMedium_digest (search : Medium) (fs : List Fragment) :
    (digest search fs).datedMedium search =
      match Medium.ofName? (searchedName search fs) with
      | some medium => .ok medium
      | none => .error .noDates := by
  unfold datedMedium searchedName
  rcases Option.eq_none_or_eq_some (said (· = .contentType) Value.text? fs).getLast? with
    last | ⟨name, last⟩
  · simp [digest, lastWord, last, Value.truthy, Json.truthy, Medium.ofName?_name]
  · by_cases empty : name = ""
    · simp [digest, lastWord, last, empty, Value.truthy, Json.truthy, Medium.ofName?_name]
    · have said : (digest search fs).contentType = .text name := by simp [digest, lastWord, last]
      have truthy : (Value.text name).truthy = true := by simp [Value.truthy, Json.truthy, empty]
      simp only [said, truthy, last, empty, if_true, if_false]
      rfl

theorem dates_digest (search : Medium) (fs : List Fragment) (medium : Medium) :
    (digest search fs).dates medium =
      YearRange.together (yearsOf medium (datedYears search fs)) := by
  cases medium <;> rfl

/-- A year at the end goes to the dates of what is searched for there. -/
theorem digest_concat_years {range : YearRange} {medium : Medium} (year : f.kind.isYear = true)
    (value : f.value = .years range) (named : searchedName search fs = medium.name) :
    digest search (fs ++ [f]) = (digest search fs).setDates
      (YearRange.together (yearsOf medium (datedYears search fs) ++ [range])) medium := by
  cases kind : f.kind <;> simp [kind, Kind.isYear] at year <;> cases medium <;>
    simp [digest, setDates, kind, Kind.isYear, Kind.isRating, value, Value.years?, named, yearsOf,
      Medium.name]

/-- A rating at the end joins the ratings before it. -/
theorem digest_concat_ratings {range : RatingRange} (rating : f.kind.isRating = true)
    (value : f.value = .ratings range) :
    digest search (fs ++ [f]) =
      { digest search fs with
        voteAverage :=
          RatingRange.together (said Kind.isRating Value.ratings? fs ++ [range]) } := by
  cases kind : f.kind <;> simp [kind, Kind.isRating] at rating <;>
    simp [digest, kind, Kind.isYear, Kind.isRating, value, Value.ratings?]

theorem add_eq_addYears (year : f.kind.isYear = true) (patch : Patch) :
    patch.add search f = patch.addYears search f.value := by
  cases kind : f.kind <;> simp_all [add, Kind.isYear]

theorem add_eq_addRatings (rating : f.kind.isRating = true) (patch : Patch) :
    patch.add search f = patch.addRatings f.value := by
  cases kind : f.kind <;> simp_all [add, Kind.isRating]

theorem add_digest_years {range : YearRange} {medium : Medium} (year : f.kind.isYear = true)
    (value : f.value = .years range) (named : searchedName search fs = medium.name) :
    (digest search fs).add search f = .ok (digest search (fs ++ [f])) := by
  have dated : (digest search fs).datedMedium search = .ok medium := by
    rw [datedMedium_digest, Medium.ofName?_eq_some.mpr named]
  have merged := mergeYears_together (yearsOf medium (datedYears search fs)) range
  rw [add_eq_addYears year, value, addYears, dated, digest_concat_years year value named]
  change (mergeYears ((digest search fs).dates medium) (.years range) >>= _) = _
  rw [dates_digest, merged]
  rfl

theorem add_digest_ratings {range : RatingRange} (rating : f.kind.isRating = true)
    (value : f.value = .ratings range) :
    (digest search fs).add search f = .ok (digest search (fs ++ [f])) := by
  have merged : mergeRatings (digest search fs).voteAverage (.ratings range) = _ :=
    mergeRatings_together (said Kind.isRating Value.ratings? fs) range
  rw [add_eq_addRatings rating, value, addRatings, merged, digest_concat_ratings rating value]
  rfl

/-- A year without dates to go to cannot be merged. -/
theorem add_digest_unnamed (year : f.kind.isYear = true)
    (unnamed : Medium.ofName? (searchedName search fs) = none) :
    (digest search fs).add search f = .error .noDates := by
  rw [add_eq_addYears year, addYears, datedMedium_digest, unnamed]
  rfl

/-- The step: unless it is a year without dates to go to, one more fragment makes the patch that
all the fragments come to. -/
theorem add_digest (typed : f.isTyped = true)
    (named : f.kind.isYear = true → Medium.ofName? (searchedName search fs) ≠ none) :
    (digest search fs).add search f = .ok (digest search (fs ++ [f])) := by
  have ofKind := typed
  unfold Fragment.isTyped at ofKind
  cases kind : f.kind with
  | contentType =>
      obtain ⟨name, word⟩ := Option.isSome_iff_exists.mp (by simpa only [kind] using ofKind)
      have value := Value.text?_eq_some.mp word
      simp [add, digest, kind, Kind.isYear, Kind.isRating, value, Value.text?, lastWord_concat]
  | yearFrom | yearTo | yearExact | yearRange =>
      have year : f.kind.isYear = true := by rw [kind]; rfl
      obtain ⟨range, value⟩ := Fragment.exists_years typed year
      obtain ⟨medium, name⟩ := Option.ne_none_iff_exists'.mp (named year)
      exact add_digest_years year value (Medium.ofName?_eq_some.mp name)
  | ratingMin | ratingMax | ratingFloor | ratingRange =>
      have rating : f.kind.isRating = true := by rw [kind]; rfl
      obtain ⟨range, value⟩ := Fragment.exists_ratings typed rating
      exact add_digest_ratings rating value
  | provider =>
      obtain ⟨ids, numbers⟩ := Option.isSome_iff_exists.mp (by simpa only [kind] using ofKind)
      have value := Value.numbers?_eq_some.mp numbers
      simp [add, addProviders, digest, kind, Kind.isYear, Kind.isRating, value, Value.items?,
        Value.numbers?, addNew_distinctNumbers]
  | genre =>
      obtain ⟨id, number⟩ := Option.isSome_iff_exists.mp (by simpa only [kind] using ofKind)
      have value := Value.number?_eq_some.mp number
      have added := addNew_distinctNumbers (said (· = .genre) Value.number? fs) [id]
      simpa [add, digest, kind, Kind.isYear, Kind.isRating, value, Value.number?] using added
  | genreExclude =>
      obtain ⟨id, number⟩ := Option.isSome_iff_exists.mp (by simpa only [kind] using ofKind)
      have value := Value.number?_eq_some.mp number
      have added := addNew_distinctNumbers (said (· = .genreExclude) Value.number? fs) [id]
      simpa [add, digest, kind, Kind.isYear, Kind.isRating, value, Value.number?] using added
  | country =>
      obtain ⟨code, word⟩ := Option.isSome_iff_exists.mp (by simpa only [kind] using ofKind)
      have value := Value.text?_eq_some.mp word
      simp [add, digest, kind, Kind.isYear, Kind.isRating, value, Value.text?, lastWord_concat]

/-- Merges one fragment; an error comes with the content type named so far, whose dates a year may
have asked for in vain. -/
def addNoting (search : Medium) (patch : Patch) (f : Fragment) :
    Except (FilterError × Value) Patch :=
  (patch.add search f).mapError (·, patch.contentType)

/-- The patch of some fragments; an error comes with the content type named where it arose. -/
def ofFragmentsNoting (search : Medium) (fs : List Fragment) :
    Except (FilterError × Value) Patch :=
  fs.foldlM (addNoting search) {}

/-- What is noted changes nothing else. -/
theorem ofFragments_eq_mapError (search : Medium) (fs : List Fragment) :
    ofFragments search fs = (ofFragmentsNoting search fs).mapError Prod.fst := by
  unfold ofFragments ofFragmentsNoting
  generalize ({} : Patch) = patch
  induction fs generalizing patch with
  | nil => rfl
  | cons f fs ih =>
      rw [addAll, List.foldlM_cons, addNoting]
      cases patch.add search f with
      | ok next => exact ih next
      | error e => rfl

/-- Without dates to go to, a year asks for those of a content type that was named. -/
theorem contentType_digest_of_unnamed
    (unnamed : Medium.ofName? (searchedName search fs) = none) :
    (digest search fs).contentType = .text (searchedName search fs) := by
  unfold searchedName at unnamed ⊢
  cases last : (said (· = .contentType) Value.text? fs).getLast? with
  | none =>
      rw [last] at unnamed
      simp [Medium.ofName?_name] at unnamed
  | some name =>
      rw [last] at unnamed
      have nonempty : name ≠ "" := by
        rintro rfl
        simp [Medium.ofName?_name] at unnamed
      simp [digest, lastWord, last, nonempty]

/-- The step: a year without dates to go to stops the merging, any other fragment is merged. -/
theorem addNoting_digest (typed : f.isTyped = true) :
    addNoting search (digest search fs) f =
      if f.kind.isYear = true ∧ Medium.ofName? (searchedName search fs) = none then
        .error (.noDates, .text (searchedName search fs))
      else .ok (digest search (fs ++ [f])) := by
  rw [addNoting]
  split
  next spoiled =>
    rw [add_digest_unnamed spoiled.1 spoiled.2, Except.mapError,
      contentType_digest_of_unnamed spoiled.2]
  next sound =>
    rw [add_digest typed fun year unnamed => sound ⟨year, unnamed⟩]
    rfl

/-- The first of some dated years for which there are no dates. -/
def undated? (dated : List (String × YearRange)) : Option (String × YearRange) :=
  dated.find? fun year => (Medium.ofName? year.1).isNone

/-- The run: fragments are merged into what they come to, or the merging stops at the first year
without dates to go to. -/
theorem ofFragmentsNoting_eq (search : Medium) (typed : ∀ f ∈ fs, f.isTyped = true) :
    ofFragmentsNoting search fs =
      match undated? (datedYears search fs) with
      | some year => .error (.noDates, .text year.1)
      | none => .ok (digest search fs) := by
  induction fs using List.reverseRecOn with
  | nil => rfl
  | append_singleton fs f ih =>
      have merged := ih fun g mem => typed g (List.mem_append_left _ mem)
      have ofLast : f.isTyped = true := typed f (by simp)
      rw [ofFragmentsNoting] at merged ⊢
      rw [List.foldlM_append, merged, datedYears_concat, undated?.eq_1 (_ ++ _), List.find?_append,
        ← undated?]
      cases undated? (datedYears search fs) with
      | some year => rfl
      | none =>
          change List.foldlM (addNoting search) (digest search fs) [f] = _
          rw [List.foldlM_cons, addNoting_digest ofLast]
          by_cases year : f.kind.isYear = true
          · obtain ⟨range, value⟩ := Fragment.exists_years ofLast year
            cases named : Medium.ofName? (searchedName search fs) with
            | none => simp [year, value, Value.years?, named, bind, Except.bind]
            | some medium =>
                simp [year, value, Value.years?, named, bind, Except.bind, pure, Except.pure]
          · simp [year, bind, Except.bind, pure, Except.pure]

/-- Fragments whose years all have dates to go to are merged into what they come to. -/
theorem ofFragments_eq_digest (typed : ∀ f ∈ fs, f.isTyped = true)
    (named : ∀ dated ∈ datedYears search fs, Medium.ofName? dated.1 ≠ none) :
    ofFragments search fs = .ok (digest search fs) := by
  have dates : undated? (datedYears search fs) = none :=
    List.find?_eq_none.mpr fun dated mem => by simpa using named dated mem
  rw [ofFragments_eq_mapError, ofFragmentsNoting_eq search typed, dates]
  rfl

/-- A year without dates to go to spoils everything. -/
theorem ofFragments_eq_noDates (typed : ∀ f ∈ fs, f.isTyped = true)
    (unnamed : ∃ dated ∈ datedYears search fs, Medium.ofName? dated.1 = none) :
    ofFragments search fs = .error .noDates := by
  obtain ⟨dated, mem, none⟩ := unnamed
  have found : (undated? (datedYears search fs)).isSome = true :=
    List.find?_isSome.mpr ⟨dated, mem, by rw [none]; rfl⟩
  obtain ⟨first, spoils⟩ := Option.isSome_iff_exists.mp found
  rw [ofFragments_eq_mapError, ofFragmentsNoting_eq search typed, spoils]
  rfl

/-- A year without dates to go to spoils everything, and nothing else does. -/
theorem ofFragments_cases (search : Medium) (typed : ∀ f ∈ fs, f.isTyped = true) :
    (∃ dated ∈ datedYears search fs, Medium.ofName? dated.1 = none) ∧
        ofFragments search fs = .error .noDates ∨
      (¬ ∃ dated ∈ datedYears search fs, Medium.ofName? dated.1 = none) ∧
        ofFragments search fs = .ok (digest search fs) := by
  by_cases unnamed : ∃ dated ∈ datedYears search fs, Medium.ofName? dated.1 = none
  · exact .inl ⟨unnamed, ofFragments_eq_noDates typed unnamed⟩
  · exact .inr ⟨unnamed, ofFragments_eq_digest typed fun dated mem none =>
      unnamed ⟨dated, mem, none⟩⟩

/-- The only patch that fragments make is what they come to. -/
theorem eq_digest_of_ofFragments {patch : Patch} (typed : ∀ f ∈ fs, f.isTyped = true)
    (made : ofFragments search fs = .ok patch) : patch = digest search fs := by
  rcases ofFragments_cases search typed with ⟨_, failed⟩ | ⟨_, merged⟩
  · rw [made] at failed
    cases failed
  · rw [made] at merged
    exact Except.ok.inj merged

/-- Fragments with values of the form that their kinds ask for are merged into what they come to. It
fails if and only if there is a year where neither films nor shows are searched for. -/
theorem ofFragments_eq (search : Medium) (fs : List Fragment)
    (typed : ∀ f ∈ fs, f.isTyped = true) :
    ofFragments search fs =
      if ∃ dated ∈ datedYears search fs,
          dated.1 ≠ Medium.movie.name ∧ dated.1 ≠ Medium.tv.name then
        .error .noDates
      else
        .ok (digest search fs) := by
  simp only [← Medium.ofName?_eq_none]
  split
  next spoiled => exact ofFragments_eq_noDates typed spoiled
  next sound => exact ofFragments_eq_digest typed fun dated mem none => sound ⟨dated, mem, none⟩

/-- In a search for films, a year before shows are named and one behind. -/
def yearsAroundShows : List Fragment :=
  [{ id := .named "since", kind := .yearFrom, value := .years ⟨some "2010", none⟩,
      label := "Since: 2010", source := "since 2010" },
    { id := .named "shows", kind := .contentType, value := .text "tv",
      label := "TV Shows", source := "shows" },
    { id := .named "until", kind := .yearTo, value := .years ⟨none, some "2015"⟩,
      label := "Until: 2015", source := "until 2015" }]

/-- The first year is about films and the last one about shows. -/
theorem ofFragments_eq_yearsAroundShows :
    (∀ f ∈ yearsAroundShows, f.isTyped = true) ∧
      ofFragments .movie yearsAroundShows = .ok
        { contentType := .text "tv"
          primaryReleaseDate := .years ⟨some "2010", none⟩
          firstAirDate := .years ⟨none, some "2015"⟩ } :=
  ⟨by decide, (ofFragments_eq .movie yearsAroundShows (by decide)).trans (by rfl)⟩

end Patch

end FilmQuery
