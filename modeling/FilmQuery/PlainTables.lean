/-
# Plain tables

A small table library: a table is its rows, a column its name and its cells.  Nothing is turned into
anything else, so numbers of different kinds stay what they are.  A value that is no object makes a
row without cells.
-/
import FilmQuery.Host
import FilmQuery.Json.Literal
import FilmQuery.Number.Decimal

namespace FilmQuery

open Number (Binary64)

/-- The fields of an object. -/
def Json.fieldsOf : Json → Json.Fields
  | .obj fields => fields
  | _ => []

namespace PlainTables

/-- Whether some row has a cell under a name. -/
def hasColumn (rows : List Json.Fields) (key : String) : Bool :=
  (cellsOf rows key).any Option.isSome

/-- The column of a name. -/
def series (rows : List Json.Fields) (key : String) : Except PageError (String × List Json) :=
  if hasColumn rows key then .ok (key, (cellsOf rows key).map (·.getD (.real .nan)))
  else .error .missingKey

/-- The columns of some names. -/
def select (rows : List Json.Fields) (keys : List String) : Except PageError (List Json.Fields) :=
  if keys.all (hasColumn rows) then .ok (rows.map (Record.restrict keys)) else .error .missingKey

/-- A column in front of the columns of a table. -/
def beside (column : String × List Json) (rows : List Json.Fields) : List Json.Fields :=
  List.zipWith (fun cell row => (column.1, cell) :: row) column.2 rows

/-- The double in a cell. -/
def real? : Json → Option Binary64
  | .real x => some x
  | _ => none

/-- The exact sum of some doubles without its fraction, if all of them are finite. -/
def wholeSum? (xs : List Binary64) : Option Int :=
  (xs.mapM Binary64.toRat?).map fun qs =>
    let sum := qs.foldr (· + ·) 0
    sum.num.tdiv sum.den

/-- The mean of some doubles. -/
def meanOf (xs : List Binary64) : Binary64 :=
  (xs.foldl Binary64.add .zero).div (.ofInt xs.length)

/-- The names of the columns. -/
def names (rows : List Json.Fields) : List String := (rows.headD []).map Prod.fst

/-- The line with the mean of a column. -/
def meanLine (rows : List Json.Fields) (key : String) : String :=
  key ++ " " ++ (meanOf ((cellsOf rows key).filterMap (·.bind real?))).fixedText 3

/-- The line of a row. -/
def rowLine (row : Json.Fields) : String := "  ".intercalate (row.map fun cell => cell.2.display)

end PlainTables

open PlainTables in
/-- The library of plain tables. -/
def plainTables : TableLibrary where
  Frame := List Json.Fields
  Series := String × List Json
  frame values := .ok (values.map Json.fieldsOf)
  size := List.length
  series := series
  select := select
  beside column rows := .ok (beside column rows)
  below rows key bound := .ok (rows.filter (Record.isBelow key bound))
  cells := Prod.snd
  records := id
  total column :=
    match column.2.mapM real? >>= wholeSum? with
    | some n => .ok n
    | none => .error .wrongType
  mean column :=
    match column.2.mapM real? with
    | some xs => .ok (meanOf xs)
    | none => .error .wrongType
  means rows := .ok ((names rows).map (meanLine rows))
  lines rows := .ok ("  ".intercalate (names rows) :: rows.map rowLine)
  sheet rows := .ok (names rows, rows.map (·.map Prod.snd))
  bars counts := .ok (counts.map fun (label, n) => (label.display, n))

/-- A host with plain tables and room for a thousand open brackets. -/
def plainHost : Host := ⟨plainTables, 1000, 1000, 1000, by decide, by decide⟩

end FilmQuery
