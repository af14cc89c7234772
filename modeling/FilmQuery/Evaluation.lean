/-
# Evaluating the rules

An evaluation file lists queries with the fragments that are expected of them.  Each query is read
by the rules of record and scored; a query that cannot be made into a patch scores zero and leaves a
line in the log.  A record of the wrong form ends the evaluation.
-/
import FilmQuery.Json.Reader
import FilmQuery.Listing
import FilmQuery.Patch.Merge
import FilmQuery.Query
import FilmQuery.Score
import FilmQuery.TableLibrary
import FilmQuery.Text.Lines

namespace FilmQuery

open Number (Binary64)

/-- Why an evaluation ends before it is done. -/
inductive EvaluationError where
  /-- There is no evaluation file; `path` is where it was looked for. -/
  | missingFile (path : String)
  /-- The file is not read as JSON. If that is for half a character, nothing is said of what the run
  does. -/
  | notJson (error : JsonError)
  /-- The file is not a list. -/
  | notAList
  /-- A record or an expected fragment is not an object. -/
  | notAnObject
  /-- What is expected of a query is no list at all. -/
  | notIterable
  /-- An expected fragment has a kind or a label that cannot be compared. -/
  | notComparable
  /-- What is found in a query cannot be made into filters, for another reason than the content
  type. -/
  | unmade (reason : FilterError)
  /-- The library that keeps tables has failed. -/
  | untabled (reason : PageError)
  /-- A value that is to be written or shown has no text. -/
  | untexted (reason : TextFault)
  deriving DecidableEq

/-- What was read from a query: its fragments and the filters they set, or why there are none. -/
inductive Output where
  | found (fragments : List Fragment) (filters : Filters)
  | failed (message : String)

/-- The result for one query. -/
structure ResultRow where
  query : Json
  scores : Scores
  output : Output

namespace ResultRow

/-- Whether the query was read exactly as expected. -/
def isExact (row : ResultRow) : Bool := !row.scores.exactMatch.lt Binary64.one

/-- The output as JSON. -/
def outputJson (row : ResultRow) : Json :=
  match row.output with
  | .found fragments filters =>
    .obj [("fragments", .arr ((fragmentRows fragments).map .obj)), ("patch", .obj filters.toFields)]
  | .failed message => .obj [("error", .str message)]

/-- The result as the fields of an object. -/
def toFields (row : ResultRow) : Json.Fields :=
  [("query", row.query), ("precision", .real row.scores.precision),
    ("recall", .real row.scores.coverage), ("f1", .real row.scores.f1),
    ("exact_match", .real row.scores.exactMatch), ("output", row.outputJson)]

/-- The result as JSON. -/
def toJson (row : ResultRow) : Json := .obj row.toFields

/-- How results are logged: each on a line of its own, in any script. -/
def style : JsonStyle := ⟨none, false⟩

/-- The line of a log that holds the result. -/
def line (row : ResultRow) : String := row.toJson.print style

/-- The log of some results: their lines, each with a line end. -/
def logText (lines : List String) : String := String.join (lines.map (· ++ "\n"))

end ResultRow

/-- A kind and a label, as they are compared. -/
abbrev Expected := Json × Json

/-- The kind and the label of an expected fragment. -/
def expectedOf : Json → Except EvaluationError Expected
  | .obj fields =>
    .ok ((Record.get? fields "kind").getD (.str ""),
      (Record.get? fields "label").getD (.str ""))
  | _ => .error .notAnObject

/-- What is expected of a query. A text or an object has items too, but they are no objects. -/
def expectations (value : Json) : Except EvaluationError (List Expected) :=
  if !value.truthy then .ok []
  else
    match value with
    | .arr items => items.mapM expectedOf
    | .str _ | .obj _ => .error .notAnObject
    | _ => .error .notIterable

/-- A kind and a label as texts; anything else equals nothing that is ever found. -/
def textPair? : Expected → Option (String × String)
  | (.str kind, .str label) => some (kind, label)
  | _ => none

/-- The scores of some fragments against what was expected. What is expected can be compared only
if it has no parts. An expected item that is no pair of texts is still one that was not found. -/
def scoresOf (fragments : List Fragment) (expected : List Expected) :
    Except EvaluationError Scores :=
  if expected.all fun (kind, label) => kind.isLeaf && label.isLeaf then
    .ok (Scores.of (fragments.map fun f => some (f.kind.name, f.label)) (expected.map textPair?))
  else .error .notComparable

/-- The line about a query that could not be made into a patch. -/
def failureLine (number : Nat) (message : String) : String :=
  "[ERROR] Failed on query #" ++ String.ofList (Number.decimalDigits number) ++ ": " ++ message

/-- The filters that some fragments set in a search for a content type. -/
def filtersFor (contentType : Json) (fragments : List Fragment) : Except FilterError Filters := do
  let medium ← Medium.ofJson contentType
  let patch ← Patch.ofFragments medium fragments
  patch.filters

/-- The result for one record, the `number`th of its file. A content type that is no name is shown
where there is room for so many open brackets. -/
def evaluateRecord (room : Option Nat) (table : Table) (number : Nat) :
    Json → Except EvaluationError (ResultRow × Option String)
  | .obj fields => do
    let query := (Record.get? fields "query").getD (.str "")
    let contentType := (Record.get? fields "content_type").getD (.str Medium.movie.name)
    let expected ← expectations ((Record.get? fields "expected").getD .null)
    let fragments := table.fragments number query
    match filtersFor contentType fragments with
    | .error (.unknownContentType given) =>
      let message := unknownContentTypeMessage room given
      pure (⟨query, .none, .failed message⟩, some (failureLine number message))
    | .error reason => throw (.unmade reason)
    | .ok filters =>
      let scores ← scoresOf fragments expected
      pure (⟨query, scores, .found fragments filters⟩, none)
  | _ => .error .notAnObject

/-- The results for some records, the lines logged on the way, and what ended the evaluation
early. -/
structure Evaluation where
  rows : List ResultRow := []
  log : List String := []
  error : Option EvaluationError := none

/-- Evaluates records, the first of which is the `number`th of its file. -/
def evaluateFrom (room : Option Nat) (table : Table) : (number : Nat) → List Json → Evaluation
  | _, [] => {}
  | number, record :: rest =>
    match evaluateRecord room table number record with
    | .error e => { error := some e }
    | .ok (row, line) =>
      let later := evaluateFrom room table (number + 1) rest
      { rows := row :: later.rows, log := line.toList ++ later.log, error := later.error }

/-- Evaluates the records of a file by the rules of record. -/
def evaluate (room : Option Nat) (records : List Json) : Evaluation :=
  evaluateFrom room Table.default 1 records

end FilmQuery
