/-
# The command line

`--evaluate ROOT` evaluates the project at `ROOT` and writes the results there; anything else is a
list of queries to report on, and without any the samples are reported on.
-/
import FilmQuery.EvaluationRun
import FilmQuery.PlainTables
import FilmQuery.Report

namespace FilmQuery

/-- The file of a path, if there is one. -/
def readFile? (path : String) : IO (Option String) :=
  try
    let text ← IO.FS.readFile path
    pure (some text)
  catch _ => pure none

/-- Evaluates the project at a root. -/
def evaluateProject (root : String) : IO UInt32 := do
  let file ← readFile? (EvaluationRun.queriesPath root)
  let run := EvaluationRun.perform plainHost root file
  if let some text := run.saved then
    IO.FS.writeFile (EvaluationRun.outputsPath root) text
  run.lines.forM fun line => IO.println line
  match run.error with
  | none => pure 0
  | some e =>
    IO.eprintln ((EvaluationRun.message? e).getD "The evaluation has ended early.")
    pure 1

end FilmQuery

/-- Runs the command line. -/
def main (args : List String) : IO UInt32 := do
  match args with
  | ["--evaluate", root] => FilmQuery.evaluateProject root
  | queries =>
    IO.print (FilmQuery.Report.text queries)
    pure 0
