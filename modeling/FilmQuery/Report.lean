/-
# Reports on queries

For every query of a list, what was found in it and the patch that it makes.
-/
import FilmQuery.Listing
import FilmQuery.Session

namespace FilmQuery

namespace Report

/-- The line between two queries. -/
def rule : String := String.ofList (List.replicate 80 '=')

/-- What is said about one query, the `number`th of its list. -/
def ofQuery (number : Nat) (query : String) : List String :=
  let heading :=
    [rule, "[TEST " ++ String.ofList (Number.decimalDigits number) ++ "] Query: " ++ query, ""]
  let found : Except FilterError (List Fragment × String) := do
    let session ← Session.start Table.default (.str Medium.movie.name) []
    let session := session.parse (.str query)
    let patch ← session.buildPatch
    let text ← patch.text
    pure (session.chips, text)
  match found with
  | .ok (chips, patch) =>
    heading ++
      ["Detected filters:", fragmentListing true chips, "", "Filter patch:", patch, ""]
  | .error _ => heading ++ ["[ERROR] Parsing failed"]

/-- The queries to report on: those asked for, or else the samples. -/
def queriesOf (asked : List String) : List String :=
  if asked.isEmpty then Catalog.sampleQueries else asked

/-- The lines of a report. -/
def lines (asked : List String) : List String :=
  ["[INFO] Initializing FilterSearchService ..."] ++
    ((queriesOf asked).zipIdx.flatMap fun (query, index) => ofQuery (index + 1) query) ++
    [rule, "[INFO] Parse run finished."]

/-- The text of a report. -/
def text (asked : List String) : String :=
  String.join ((lines asked).map (· ++ "\n"))

end Report

end FilmQuery
