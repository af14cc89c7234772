/-
# The table page

The page lists the rules of record, the kinds of fragments found in the session, and the results of
the last evaluation.  The results are read from a log with one JSON value on a line; a log that
is not JSON counts as empty.  They are summed up and drawn by the library that keeps tables.
-/
import FilmQuery.Host
import FilmQuery.Json.Literal
import FilmQuery.Json.Reader
import FilmQuery.Screen.Element
import FilmQuery.Session
import FilmQuery.Text.Lines

namespace FilmQuery

open Number (Binary64)

/-- The results that a log holds: the value of each line that is not blank. -/
def loggedValues (deepest : Nat) (log : List Char) : Except JsonError (List Json) :=
  (((Text.lines log).map Text.trim).filter (!·.isEmpty)).mapM (Json.read deepest)

/-- What is kept of a log. -/
inductive Loaded where
  | results (values : List Json)
  /-- A text in the log writes half a character. What is read then, and what is shown from there on,
  is not told. -/
  | untold
  deriving DecidableEq

/-- What the log of results is read as. A missing log and one with a broken line are empty; a number
that is too long and brackets that are open too deep are errors. -/
def loadResults (deepest : Nat) (log : Option String) : Except PageError Loaded :=
  match log with
  | none => .ok (.results [])
  | some text =>
    match loggedValues deepest text.toList with
    | .ok values => .ok (.results values)
    | .error .malformed => .ok (.results [])
    | .error (.longInteger _) => .error .wrongValue
    | .error .tooDeep => .error .tooDeep
    | .error .halfCharacter => .ok .untold

/-- The error that a value without a text ends the page with. -/
def PageError.ofTextFault : TextFault → PageError
  | .longInteger => .wrongValue
  | .tooDeep => .tooDeep

namespace TablePage

/-- The kinds of the fragments in one output. Nothing is in an empty output; a missing one, a text
and a number are no outputs. -/
def outputKinds (output : Json) : Except PageError (List Json) :=
  if !output.truthy then .ok []
  else
    match output with
    | .obj fields =>
      let kinds (fragments : List Json) : Except PageError (List Json) :=
        fragments.mapM fun
          | .obj fragment =>
            let kind := (Record.get? fragment "kind").getD (.str "")
            if kind.isLeaf then .ok kind else .error .wrongType
          | _ => .error .missingAttribute
      match (Record.get? fields "fragments").getD (.arr []) with
      | .arr fragments => kinds fragments
      | .str "" => .ok []
      | .obj [] => .ok []
      | .str _ => .error .missingAttribute
      | .obj _ => .error .missingAttribute
      | _ => .error .wrongType
    | _ => .error .missingAttribute

/-- Whether two kinds are counted together: a kind is one with itself and with all equal ones. -/
def isSameKind (a b : Json) : Bool := decide (a = b) || a.same b

/-- Counts a kind once more. -/
def countKind (kind : Json) : List (Json × Nat) → List (Json × Nat)
  | [] => [(kind, 1)]
  | (other, n) :: rest =>
    if isSameKind other kind then (other, n + 1) :: rest else (other, n) :: countKind kind rest

/-- How often each kind of fragment is in some outputs, in the order of first appearance. -/
def kindCounts (outputs : List Json) : Except PageError (List (Json × Nat)) :=
  (outputs.mapM outputKinds).map fun kinds =>
    kinds.flatten.foldl (fun counts kind => countKind kind counts) []

/-- A number with the given error, as a step of the page. -/
def metric (label : String) (value : Except PageError String) : Except PageError Element :=
  value.map (Element.metric label)

/-- Two columns of numbers. One that fails leaves the numbers before it, and its error. -/
def metricColumns (left right : List (Except PageError Element)) : Element × Option PageError :=
  let (shown, error) := untilError left
  match error with
  | some e => (.columns [shown, []], some e)
  | none =>
    let (others, error) := untilError right
    (.columns [shown, others], error)

/-- What some steps draw up to the first that fails, and its error. -/
def drawn (steps : List (Except PageError (List Element))) : List Element :=
  let (shown, error) := untilError steps
  shown.flatten ++ (error.map fun e => .failure e.name).toList

section Results

variable (tables : TableLibrary)

/-- How many queries were read exactly. -/
def exactText (scores : tables.Frame) : Except PageError String := do
  let column ← tables.series scores "exact_match"
  let count ← tables.total column
  ((Json.int count).display? none).mapError .ofTextFault

/-- The mean of a column of scores. -/
def meanText (scores : tables.Frame) (key : String) : Except PageError String := do
  let column ← tables.series scores key
  let mean ← tables.mean column
  pure (mean.fixedText 2)

/-- The summary of the scores: how many queries there are, how many of them were read exactly, and
the means. -/
def metrics (frame scores : tables.Frame) : Element × Option PageError :=
  metricColumns
    [metric "Queries" (.ok (String.ofList (Number.decimalDigits (tables.size frame)))),
      metric "Exact matches" (exactText tables scores)]
    [metric "Mean precision" (meanText tables scores "precision"),
      metric "Mean recall" (meanText tables scores "recall")]

/-- The chart of the kinds, the most frequent first; none without fragments. -/
def kindChart (frame : tables.Frame) : Except PageError (List Element) := do
  let outputs ← tables.series frame "output"
  let counts ← kindCounts (tables.cells outputs)
  if counts.isEmpty then pure []
  else
    let bars ← tables.bars (counts.mergeSort fun a b => decide (b.2 ≤ a.2))
    pure [.chart "Fragments per kind in the evaluation set" "Count" bars]

/-- The table of the queries and their scores. -/
def scoreSheet (frame scores : tables.Frame) : Except PageError (List Element) := do
  let table ← tables.scoreTable frame scores
  let (names, rows) ← tables.sheet table
  pure [.table names rows]

/-- The table of some results, and its columns of scores. -/
def resultTables (values : List Json) : Except PageError (tables.Frame × tables.Frame) := do
  let frame ← tables.frame values
  let scores ← tables.select frame scoreColumns
  pure (frame, scores)

/-- The note that stands for no results. -/
def noResults : Element :=
  .info "No evaluation outputs found. Run `python scripts/run_eval.py` first."

/-- What is shown of results. -/
def resultSection (values : List Json) : List Element :=
  if values.isEmpty then [noResults]
  else
    match resultTables tables values with
    | .error e => [.failure e.name]
    | .ok (frame, scores) =>
      let (summary, error) := metrics tables frame scores
      summary ::
        match error with
        | some e => [.failure e.name]
        | none => drawn [kindChart tables frame, scoreSheet tables frame scores]

/-- The section about the last evaluation. -/
def evaluation : Except PageError Loaded → List Element
  | .ok (.results values) => resultSection tables values
  | .ok .untold => [.untold]
  | .error e => [.failure e.name]

end Results

/-- The section about the kinds found in the session, the most frequent first. -/
def kindSection (counts : Tally Kind) : Element :=
  if counts.entries.isEmpty then
    .info "No searches parsed yet in this session. Type a query in the main app first."
  else
    .table ["Kind", "Times detected"]
      (counts.byCount.map fun (kind, count) => [.str kind.name, .int count])

/-- The listing of the rules. -/
def ruleTable (table : Table) : Element :=
  .table ["order", "kind", "pattern", "value"] (table.describe.map (·.map Prod.snd))

/-- The heading of the section about the last evaluation. -/
def evaluationHeading : String := "📊 Evaluation run"

/-- What stands above this heading. -/
def introduction (session : Session) : List Element :=
  [.title "🧩 Pattern Table",
    .markdown ("Every phrase shape the search box understands, in evaluation order.\n" ++
      "Earlier rules claim their text first, so order decides overlaps."),
    ruleTable Table.default,
    .markdown "---",
    .subheader "🏷️ Detected fragment kinds (this session)",
    kindSection session.counts,
    .markdown "---"]

/-- The page. -/
def main (tables : TableLibrary) (session : Session) (read : Except PageError Loaded) :
    List Element :=
  introduction session ++ .subheader evaluationHeading :: evaluation tables read

end TablePage

end FilmQuery
