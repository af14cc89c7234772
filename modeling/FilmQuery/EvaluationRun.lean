/-
# Evaluation runs

A run reads the evaluation file of a project, evaluates it, writes the results down line by line,
and reports on them: the scores of each query, the means, and the queries that were not read as
expected.  Results and queries go through a table on their way.
-/
import FilmQuery.Evaluation
import FilmQuery.Host

namespace FilmQuery

open Number (Binary64)

/-- What a run has done: the lines it has printed, the text it has left in the results file, if it
came so far, and what has ended it early. -/
structure EvaluationRun where
  lines : List String := []
  saved : Option String := none
  error : Option EvaluationError := none

namespace EvaluationRun

/-- Where a project keeps its evaluation file. -/
def queriesPath (root : String) : String := root ++ "/data/eval/eval_queries.json"

/-- Where a project keeps the results of its last evaluation. -/
def outputsPath (root : String) : String := root ++ "/data/eval/parse_outputs.jsonl"

/-- The message of an error, where it is told. -/
def message? : EvaluationError → Option String
  | .missingFile path => some ("Could not find evaluation file at: " ++ path)
  | .notJson (.longInteger digits) =>
    some ("Exceeds the limit (4300 digits) for integer string conversion: value has " ++
      String.ofList (Number.decimalDigits digits) ++
      " digits; use sys.set_int_max_str_digits() to increase the limit")
  | .notAList => some "Expected eval_queries.json to contain a list of objects."
  | .untexted .longInteger => some TextFault.longInteger.message
  | _ => none

/-- The records of an evaluation file, read where there is room for `deepest` open brackets. -/
def load (deepest : Nat) (root : String) (file : Option String) :
    Except EvaluationError (List Json) :=
  match file with
  | none => .error (.missingFile (queriesPath root))
  | some text =>
    match Json.read deepest text.toList with
    | .error e => .error (.notJson e)
    | .ok (.arr records) => .ok records
    | .ok _ => .error .notAList

/-- The line printed before the evaluation file is read. -/
def loadingLine (root : String) : String :=
  "[INFO] Loading evaluation queries from: " ++ queriesPath root

/-- The line printed once the evaluation file is read. -/
def loadedLine (count : Nat) : String :=
  "[INFO] Loaded " ++ String.ofList (Number.decimalDigits count) ++ " evaluation queries"

/-- The lines above the queries that were not read as expected. -/
def misreadHeading (count : Nat) : List String :=
  ["", "[ERROR] " ++ String.ofList (Number.decimalDigits count) ++
    " query(ies) did not match the gold fragments:"]

/-- The line about a query that was not read as expected. -/
def misreadLine (query : String) : String := "  - " ++ query

/-- The lines that say where the results are. -/
def savedNote (root : String) : List String :=
  ["", "[INFO] Saved parse outputs to:", "  - " ++ outputsPath root]

section Report

variable (host : Host)

/-- The steps that list the queries which were not read as expected, each with its lines; none if
there are none. -/
def misreadSteps (frame : host.tables.Frame) : List (Except EvaluationError (List String)) :=
  match host.tables.below frame "exact_match" .one with
  | .error e => [.error (.untabled e)]
  | .ok misread =>
    let count := host.tables.size misread
    if count = 0 then []
    else
      .ok (misreadHeading count) ::
        match host.tables.series misread "query" with
        | .error e => [.error (.untabled e)]
        | .ok queries =>
          (host.tables.cells queries).map fun query =>
            match query.display? (some host.showing) with
            | .error fault => .error (.untexted fault)
            | .ok text => .ok [misreadLine text]

/-- The steps of the report on a table of results, each with its lines. -/
def reportSteps (root : String) (frame scores : host.tables.Frame) :
    List (Except EvaluationError (List String)) :=
  [.ok ["", "Per-query scores:"],
    (host.tables.scoreTable frame scores >>= host.tables.lines).mapError .untabled,
    .ok ["", "Mean scores:"], (host.tables.means scores).mapError .untabled] ++
  misreadSteps host frame ++ [.ok (savedNote root)]

/-- The lines of the report, and what ends it early. -/
def report (root : String) (frame : host.tables.Frame) : List String × Option EvaluationError :=
  match host.tables.select frame scoreColumns with
  | .error e => ([], some (.untabled e))
  | .ok scores =>
    let (lines, error) := untilError (reportSteps host root frame scores)
    (lines.flatten, error)

/-- The lines that are written for the rows of a table, and why a row cannot be written. -/
def savedLines (frame : host.tables.Frame) : List String × Option TextFault :=
  untilError <| (host.tables.records frame).map fun row =>
    (Json.obj row).print? ResultRow.style (some host.writing)

/-- Writes results down and reports on them, after some lines were printed. -/
def conclude (root : String) (lines : List String) (rows : List ResultRow) : EvaluationRun :=
  match host.tables.frame (rows.map ResultRow.toJson) with
  | .error e => { lines, error := some (.untabled e) }
  | .ok frame =>
    let (written, fault) := savedLines host frame
    let saved := some (ResultRow.logText written)
    match fault with
    | some fault => { lines, saved, error := some (.untexted fault) }
    | none =>
      let (reported, error) := report host root frame
      { lines := lines ++ reported, saved, error }

/-- Evaluates the file of a project. -/
def perform (root : String) (file : Option String) : EvaluationRun :=
  match load host.reading root file with
  | .error e => { lines := [loadingLine root], error := some e }
  | .ok records =>
    let evaluation := evaluate (some host.showing) records
    let lines := loadingLine root :: loadedLine records.length :: evaluation.log
    match evaluation.error with
    | some e => { lines, error := some e }
    | none => conclude host root lines evaluation.rows

end Report

end EvaluationRun

end FilmQuery
