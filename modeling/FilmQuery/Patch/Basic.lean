/-
# Patches

A patch is what a query wants to change in the filters, under the field names of the catalog.
Fragments are folded into it one by one: of words the last one stays, ranges take each side from
the last fragment that has it, and lists only grow.  A year goes to the dates of the medium that
the fragments before it have named, or else of the medium of the search.

Nothing keeps a fragment from carrying a value of another form than its kind asks for.  The first
such value is kept as it is; what it does to the ranges that follow is told with the functions that
merge them.
-/
import FilmQuery.Filters
import FilmQuery.Fragment.Basic
import FilmQuery.Medium

namespace FilmQuery

/-- What a query wants to change in the filters; a field with no value is left as it is. -/
structure Patch where
  contentType : Value := .nothing
  primaryReleaseDate : Value := .nothing
  firstAirDate : Value := .nothing
  voteAverage : Value := .nothing
  watchProviders : List Value := []
  genres : List Value := []
  withoutGenres : List Value := []
  watchRegion : Value := .nothing
  deriving DecidableEq

/-- The side of a range after another range was merged into it. -/
def laterSide {α : Type} (old new : Option α) : Option α := new.or old

/-- Years with later years merged into them. -/
def YearRange.merge (old new : YearRange) : YearRange :=
  ⟨laterSide old.start new.start, laterSide old.stop new.stop⟩

/-- Ratings with later ratings merged into them. -/
def RatingRange.merge (old new : RatingRange) : RatingRange :=
  ⟨laterSide old.low new.low, laterSide old.high new.high⟩

/-- Why a range cannot be merged into something else: a side that it leaves open is looked for
there in vain, or else there is no room for its sides. -/
def misfit {α : Type} (first second : Option α) : FilterError :=
  if first.isSome && second.isSome then .foreignRange else .noRange

/-- Merges a value into the dates that are there. Without dates it is taken as it is. -/
def mergeYears (old new : Value) : Except FilterError Value :=
  match old, new with
  | .nothing, new => .ok new
  | .years old, .years new => .ok (.years (old.merge new))
  | _, .years new => .error (misfit new.start new.stop)
  | _, _ => .error .noRange

/-- Merges a value into the ratings that are there. Without ratings it is taken as it is. -/
def mergeRatings (old new : Value) : Except FilterError Value :=
  match old, new with
  | .nothing, new => .ok new
  | .ratings old, .ratings new => .ok (.ratings (old.merge new))
  | _, .ratings new => .error (misfit new.low new.high)
  | _, _ => .error .noRange

namespace Patch

/-- The dates of a medium. -/
def dates (patch : Patch) : Medium → Value
  | .movie => patch.primaryReleaseDate
  | .tv => patch.firstAirDate

/-- The patch with other dates for a medium. -/
def setDates (patch : Patch) (value : Value) : Medium → Patch
  | .movie => { patch with primaryReleaseDate := value }
  | .tv => { patch with firstAirDate := value }

/-- The medium whose dates a year speaks about: the one named so far, unless the name says nothing,
or else the medium of the search. -/
def datedMedium (patch : Patch) (search : Medium) : Except FilterError Medium :=
  if patch.contentType.truthy then
    match Medium.ofValue? patch.contentType with
    | some medium => .ok medium
    | none => .error .noDates
  else .ok search

/-- Merges the value of a year fragment. -/
def addYears (patch : Patch) (search : Medium) (value : Value) : Except FilterError Patch := do
  let medium ← patch.datedMedium search
  let dates ← mergeYears (patch.dates medium) value
  pure (patch.setDates dates medium)

/-- Merges the value of a rating fragment. -/
def addRatings (patch : Patch) (value : Value) : Except FilterError Patch :=
  (mergeRatings patch.voteAverage value).map fun ratings => { patch with voteAverage := ratings }

/-- Adds the items of the value of a provider fragment. -/
def addProviders (patch : Patch) (value : Value) : Except FilterError Patch :=
  match value.items? with
  | some ids => .ok { patch with watchProviders := addNew Value.same patch.watchProviders ids }
  | none => .error .noList

/-- Merges one fragment. -/
def add (patch : Patch) (search : Medium) (f : Fragment) : Except FilterError Patch :=
  match f.kind with
  | .contentType => .ok { patch with contentType := f.value }
  | .yearFrom | .yearTo | .yearExact | .yearRange => patch.addYears search f.value
  | .ratingMin | .ratingMax | .ratingFloor | .ratingRange => patch.addRatings f.value
  | .provider => patch.addProviders f.value
  | .genre => .ok { patch with genres := addNew Value.same patch.genres [f.value] }
  | .genreExclude =>
    .ok { patch with withoutGenres := addNew Value.same patch.withoutGenres [f.value] }
  | .country => .ok { patch with watchRegion := f.value }

/-- Merges fragments into a patch, in their order. -/
def addAll (search : Medium) : Patch → List Fragment → Except FilterError Patch
  | patch, [] => .ok patch
  | patch, f :: rest =>
    match patch.add search f with
    | .ok next => addAll search next rest
    | .error e => .error e

/-- The patch of some fragments, for a search of the given medium. -/
def ofFragments (search : Medium) (fragments : List Fragment) : Except FilterError Patch :=
  addAll search {} fragments

end Patch

/-- The fragments without those of one identifier. -/
def withoutFragment (fragments : List Fragment) (id : FragmentId) : List Fragment :=
  fragments.filter (·.id != id)

end FilmQuery
