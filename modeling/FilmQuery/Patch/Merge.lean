/-
# Merging a patch into the filters

A patch sets some filters.  A word or a range replaces what a filter was set to, and the items of a
list are added to the list that is there; what the patch does not set stays as it is.
-/
import FilmQuery.Json.Printer
import FilmQuery.Patch.Basic

namespace FilmQuery

/-- Sets one filter. -/
def Filters.change (filters : Filters) (key : String) : Setting → Except FilterError Filters
  | .value v => .ok (Record.set key (.value v) filters)
  | .list items =>
    match (filters.setting key).items? with
    | some old => .ok (Record.set key (.list (addNew Value.same old items)) filters)
    | none => .error .noList

/-- Sets filters, one after the other. -/
def Filters.merge : Filters → Filters → Except FilterError Filters
  | filters, [] => .ok filters
  | filters, (key, setting) :: rest =>
    match filters.change key setting with
    | .ok next => merge next rest
    | .error e => .error e

namespace Patch

/-- The filter that one value sets, if the patch has it. A value that is a list is added to the
list that is there, as the fields that hold lists are. -/
def single (key : String) : Value → Filters
  | .nothing => []
  | .plain (.arr items) => [(key, .list (items.map .plain))]
  | value => [(key, .value value)]

/-- The filter that a list sets, if it is not empty. -/
def several (key : String) (items : List Value) : Filters :=
  if items.isEmpty then [] else [(key, .list items)]

/-- The ranges of a patch. -/
def ranges (patch : Patch) : List Value :=
  [patch.primaryReleaseDate, patch.firstAirDate, patch.voteAverage]

/-- Whether a value is a range, be it of years or of ratings, or no value. -/
def isRange : Value → Bool
  | .nothing | .years _ | .ratings _ => true
  | _ => false

/-- The filters that a patch sets, in the order in which they are set. What stands for a range has
to be one. -/
def filters (patch : Patch) : Except FilterError Filters :=
  if patch.ranges.all isRange then
    .ok (single "content_type" patch.contentType ++
      single "primary_release_date" patch.primaryReleaseDate ++
      single "first_air_date" patch.firstAirDate ++
      single "vote_average" patch.voteAverage ++
      several "with_watch_providers" patch.watchProviders ++
      several "with_genres" patch.genres ++
      several "without_genres" patch.withoutGenres ++
      single "watch_region" patch.watchRegion)
  else .error .noRange

/-- The filters after a patch was merged into them. -/
def mergeInto (patch : Patch) (filters : Filters) : Except FilterError Filters := do
  let changes ← patch.filters
  filters.merge changes

/-- Why a value cannot be written where a word or a number is expected, if it cannot. -/
def writingFault? : Value → Option FilterError
  | .years _ | .ratings _ => some .unwritable
  | value => (value.textFault? none).map fun _ => .longInteger

/-- How a patch is set out: a line for every item, in ASCII. -/
def style : JsonStyle := ⟨some 2, true⟩

/-- The words and numbers of a patch, in the order of the keys of their fields. -/
def words (patch : Patch) : List Value :=
  patch.contentType :: patch.watchRegion ::
    (patch.genres ++ patch.watchProviders ++ patch.withoutGenres)

/-- The text of a patch, with the fields in the order of their keys. The first word or number that
cannot be written says why there is none. -/
def text (patch : Patch) : Except FilterError String := do
  let filters ← patch.filters
  match patch.words.findSome? writingFault? with
  | some fault => throw fault
  | none => pure (Json.print style (Json.obj filters.toFields).sortKeys)

end Patch

end FilmQuery
