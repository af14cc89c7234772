/-
# Table libraries

Results are set out in tables, summed up and drawn by a library that is not part of this one, so it
is a parameter: a `TableLibrary` makes tables of values, gives their columns and some of their rows,
sums and means, and sets out a table or a chart.  Any of its calls can fail, and an error ends the
page or the run that has asked.

What is relied on is what such libraries document (`TableLibrary.Laws`).  It is said of the tables
that are made of objects (`TableLibrary.IsTable`) and of columns whose cells are kept as they are
(`KeepsCells`): how numbers, gaps and other values are turned into one another where a column mixes
them is left open.
-/
import FilmQuery.Json.Basic

namespace FilmQuery

open Number (Binary64)

/-- Why a page or a run ends before everything is done. -/
inductive PageError where
  | missingKey
  | missingAttribute
  | wrongType
  | wrongValue
  | tooDeep
  /-- An error of a library that has another name. -/
  | foreign (name : String)
  deriving DecidableEq

/-- The name of an error on the screen. -/
def PageError.name : PageError → String
  | .missingKey => "KeyError"
  | .missingAttribute => "AttributeError"
  | .wrongType => "TypeError"
  | .wrongValue => "ValueError"
  | .tooDeep => "RecursionError"
  | .foreign name => name

/-- What a page or a run asks of the library that keeps tables. -/
structure TableLibrary where
  Frame : Type
  Series : Type
  /-- The table of some values. -/
  frame : List Json → Except PageError Frame
  /-- The number of rows. -/
  size : Frame → Nat
  /-- The column of a name. -/
  series : Frame → String → Except PageError Series
  /-- The columns of some names. -/
  select : Frame → List String → Except PageError Frame
  /-- A column in front of the columns of a table. -/
  beside : Series → Frame → Except PageError Frame
  /-- The rows in which a column is less than a number. -/
  below : Frame → String → Binary64 → Except PageError Frame
  /-- The cells of a column, from top to bottom. -/
  cells : Series → List Json
  /-- The rows, each with the names of the columns. -/
  records : Frame → List Json.Fields
  /-- The sum of a column without its fraction. -/
  total : Series → Except PageError Int
  /-- The mean of a column. -/
  mean : Series → Except PageError Binary64
  /-- The means of all columns, to three digits after the point, in lines of text. -/
  means : Frame → Except PageError (List String)
  /-- A table in lines of text. -/
  lines : Frame → Except PageError (List String)
  /-- A table on a page: the names of its columns and its cells, row by row. -/
  sheet : Frame → Except PageError (List String × List (List Json))
  /-- The bars of a chart, each over its label. -/
  bars : List (Json × Nat) → Except PageError (List (String × Nat))

/-- A row with the columns of some names only; a gap reads as not-a-number. -/
def Record.restrict (keys : List String) (row : Json.Fields) : Json.Fields :=
  keys.map fun key => (key, (Record.get? row key).getD (.real .nan))

/-- Whether a number stands under a name and is less than another one. -/
def Record.isBelow (key : String) (bound : Binary64) (row : Json.Fields) : Bool :=
  match Record.get? row key with
  | some (.real x) => x.lt bound
  | _ => false

/-- What stands under a name in some rows. -/
def cellsOf (rows : List Json.Fields) (key : String) : List (Option Json) :=
  rows.map (Record.get? · key)

/-- Whether no row has a cell under a name. -/
def IsMissing (rows : List Json.Fields) (key : String) : Prop :=
  ∀ cell ∈ cellsOf rows key, cell = none

/-- Whether all cells of a column are texts. -/
def AreTexts (cells : List (Option Json)) : Prop := ∀ cell ∈ cells, ∃ text, cell = some (.str text)

/-- Whether all cells of a column are doubles. -/
def AreReals (cells : List (Option Json)) : Prop := ∀ cell ∈ cells, ∃ x, cell = some (.real x)

/-- Whether a column keeps its cells as they are: there are texts only, or doubles only, or there is
an object among them. -/
def KeepsCells (cells : List (Option Json)) : Prop :=
  cells ≠ [] ∧ (AreTexts cells ∨ AreReals cells ∨ ∃ fields, some (.obj fields) ∈ cells)

/-- Whether a value is no whole number beyond a word of 64 bits. -/
def fitsWord : Json → Bool
  | .int n => decide (n.natAbs < 0x8000000000000000)
  | _ => true

/-- Whether a text is a name: letters, digits and underscores. -/
def isName (text : String) : Bool := text.toList.all fun c => c.isAlphanum || c == '_'

namespace TableLibrary

variable (tables : TableLibrary)

/-- The rows of the tables that are made of objects. -/
inductive IsTable : tables.Frame → List Json.Fields → Prop
  | ofObjects {rows : List Json.Fields} {frame : tables.Frame}
      (made : tables.frame (rows.map .obj) = .ok frame) : IsTable frame rows
  | ofSelect {rows : List Json.Fields} {frame part : tables.Frame} {keys : List String}
      (nodup : keys.Nodup) (whole : IsTable frame rows)
      (made : tables.select frame keys = .ok part) :
      IsTable part (rows.map (Record.restrict keys))
  | ofBeside {rows : List Json.Fields} {frame part joined : tables.Frame} {column : tables.Series}
      {key : String} {keys : List String} (nodup : (key :: keys).Nodup) (whole : IsTable frame rows)
      (first : tables.series frame key = .ok column) (others : tables.select frame keys = .ok part)
      (made : tables.beside column part = .ok joined) :
      IsTable joined (rows.map (Record.restrict (key :: keys)))
  | ofBelow {rows : List Json.Fields} {frame kept : tables.Frame} {key : String} {bound : Binary64}
      (whole : IsTable frame rows) (made : tables.below frame key bound = .ok kept) :
      IsTable kept (rows.filter (Record.isBelow key bound))

/-- What a table library documents. -/
structure Laws : Prop where
  /-- A list of objects makes a table, unless a number in it is too large for a word. -/
  frame_objects {rows : List Json.Fields}
    (fit : ∀ row ∈ rows, ∀ field ∈ row, fitsWord field.2 = true) :
    ∃ frame, tables.frame (rows.map .obj) = .ok frame
  /-- So does a list of values without parts, but its only column has no name. -/
  frame_leaves {values : List Json} (filled : values ≠ [])
    (leaves : ∀ value ∈ values, value.isLeaf = true)
    (fit : ∀ value ∈ values, fitsWord value = true) :
    ∃ frame, tables.frame values = .ok frame ∧
      ∀ keys, keys ≠ [] → tables.select frame keys = .error .missingKey
  /-- A table has as many rows as there are objects. -/
  size {frame : tables.Frame} {rows : List Json.Fields} (table : tables.IsTable frame rows) :
    tables.size frame = rows.length
  /-- A column that keeps its cells can be had, with not-a-number in its gaps. -/
  series {frame : tables.Frame} {rows : List Json.Fields} {key : String}
    (table : tables.IsTable frame rows) (keeps : KeepsCells (cellsOf rows key)) :
    ∃ column, tables.series frame key = .ok column ∧
      tables.cells column = (cellsOf rows key).map (·.getD (.real .nan))
  /-- Columns that are there can be selected. -/
  select {frame : tables.Frame} {rows : List Json.Fields} {keys : List String}
    (table : tables.IsTable frame rows) (there : ∀ key ∈ keys, ¬ IsMissing rows key) :
    ∃ part, tables.select frame keys = .ok part
  /-- A name that is in none of the objects is the name of no column. -/
  select_missing {frame : tables.Frame} {rows : List Json.Fields} {keys : List String}
    {key : String} (made : tables.frame (rows.map .obj) = .ok frame) (asked : key ∈ keys)
    (missing : IsMissing rows key) : tables.select frame keys = .error .missingKey
  /-- A column of a table can stand in front of other columns of it. -/
  beside {frame part : tables.Frame} {rows : List Json.Fields} {column : tables.Series}
    {key : String} {keys : List String} (table : tables.IsTable frame rows)
    (first : tables.series frame key = .ok column) (others : tables.select frame keys = .ok part) :
    ∃ joined, tables.beside column part = .ok joined
  /-- Doubles can be compared. -/
  below {frame : tables.Frame} {rows : List Json.Fields} {key : String} (bound : Binary64)
    (table : tables.IsTable frame rows) (filled : rows ≠ []) (reals : AreReals (cellsOf rows key)) :
    ∃ kept, tables.below frame key bound = .ok kept
  /-- Rows that all have the same names come back as they were. -/
  records {frame : tables.Frame} {rows : List Json.Fields} {keys : List String}
    (table : tables.IsTable frame rows) (nodup : keys.Nodup)
    (uniform : ∀ row ∈ rows, row.map Prod.fst = keys)
    (keep : rows ≠ [] → ∀ key ∈ keys, KeepsCells (cellsOf rows key)) :
    tables.records frame = rows
  /-- The sum of ones and zeros is the number of the ones. -/
  total {column : tables.Series} {xs : List Binary64} (cells : tables.cells column = xs.map .real)
    (bits : ∀ x ∈ xs, x = .zero ∨ x = .one) (short : xs.length < 0x20000000000000) :
    tables.total column = .ok (xs.count .one)
  /-- Doubles have a mean. -/
  mean {column : tables.Series} {xs : List Binary64} (cells : tables.cells column = xs.map .real)
    (filled : xs ≠ []) : ∃ mean, tables.mean column = .ok mean
  /-- Columns of doubles have means. -/
  means {frame : tables.Frame} {rows : List Json.Fields} {keys : List String}
    (table : tables.IsTable frame rows) (filled : rows ≠ [])
    (uniform : ∀ row ∈ rows, row.map Prod.fst = keys)
    (reals : ∀ key ∈ keys, AreReals (cellsOf rows key)) : ∃ means, tables.means frame = .ok means
  /-- A table of texts and doubles can be set out in lines. -/
  lines {frame : tables.Frame} {rows : List Json.Fields} {keys : List String}
    (table : tables.IsTable frame rows) (filled : rows ≠ [])
    (uniform : ∀ row ∈ rows, row.map Prod.fst = keys)
    (plain : ∀ key ∈ keys, AreTexts (cellsOf rows key) ∨ AreReals (cellsOf rows key)) :
    ∃ lines, tables.lines frame = .ok lines
  /-- On a page it has the names of its columns and its cells. -/
  sheet {frame : tables.Frame} {rows : List Json.Fields} {keys : List String}
    (table : tables.IsTable frame rows) (filled : rows ≠ [])
    (uniform : ∀ row ∈ rows, row.map Prod.fst = keys)
    (plain : ∀ key ∈ keys, AreTexts (cellsOf rows key) ∨ AreReals (cellsOf rows key)) :
    tables.sheet frame = .ok (keys, rows.map (·.map Prod.snd))
  /-- Bars with names for their labels are drawn with these labels. -/
  bars {counts : List (String × Nat)} (names : ∀ entry ∈ counts, isName entry.1 = true) :
    tables.bars (counts.map fun (label, n) => (.str label, n)) = .ok counts

end TableLibrary

end FilmQuery
