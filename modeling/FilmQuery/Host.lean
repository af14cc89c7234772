/-
# What pages and runs find around them

Both the table page and a run of the evaluation work on what they did not make: a library that keeps
tables, and the room that is left when they read, show or write a value whose parts stand inside one
another (`Host`).  Both take their steps one after the other until one fails (`untilError`), and
both show the table of the queries and their scores.
-/
import FilmQuery.TableLibrary

namespace FilmQuery

/-- What a page or a run finds around it. -/
structure Host where
  tables : TableLibrary
  /-- How many brackets can be open when JSON is read. -/
  reading : Nat
  /-- How many brackets can be open when a value is shown. -/
  showing : Nat
  /-- How many brackets can be open when JSON is written. -/
  writing : Nat
  /-- A result of the evaluation, which has four brackets open at most, can be read. -/
  reads_results : 4 ≤ reading
  /-- It can be written, too. -/
  writes_results : 4 ≤ writing

/-- What some steps give up to the first that fails, and its error. -/
def untilError {ε α : Type} : List (Except ε α) → List α × Option ε
  | [] => ([], none)
  | .ok x :: rest =>
    let (given, error) := untilError rest
    (x :: given, error)
  | .error e :: _ => ([], some e)

/-- The columns of scores. -/
def scoreColumns : List String := ["precision", "recall", "f1", "exact_match"]

/-- The table of the queries and their scores. -/
def TableLibrary.scoreTable (tables : TableLibrary) (frame scores : tables.Frame) :
    Except PageError tables.Frame := do
  let queries ← tables.series frame "query"
  tables.beside queries scores

end FilmQuery
