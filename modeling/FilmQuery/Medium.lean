/-
# Films and shows

A search is for films or for shows.  The choice arrives as a value of any kind, is checked against
the two names, and decides which dates a year of the query speaks about.
-/
import FilmQuery.Fragment.Value

namespace FilmQuery

/-- What is searched for. -/
inductive Medium where
  | movie
  | tv
  deriving DecidableEq, Repr

/-- Why fragments cannot be made into a patch, or a patch not be merged or written. -/
inductive FilterError where
  /-- The content type is neither of the two names. -/
  | unknownContentType (given : Value)
  /-- A year follows a content type that has no dates. -/
  | noDates
  /-- A side of a range is asked of a value that has no such side. -/
  | noRange
  /-- The sides of a range are to go into a value that has no room for them. -/
  | foreignRange
  /-- A list is needed and something else is there. -/
  | noList
  /-- A range stands where only a word or a number can be written. -/
  | unwritable
  /-- A whole number is too long to be written. -/
  | longInteger
  deriving DecidableEq

namespace Medium

/-- The name of a medium in filters. -/
def name : Medium → String
  | .movie => "movie"
  | .tv => "tv"

/-- The name of a medium as it is shown. -/
def label : Medium → String
  | .movie => "Movies"
  | .tv => "TV Shows"

/-- The medium of a name. -/
def ofName? (name : String) : Option Medium :=
  if name = "movie" then some .movie else if name = "tv" then some .tv else none

/-- The medium that a value names. -/
def ofValue? : Value → Option Medium
  | .text name => ofName? name
  | _ => none

/-- The medium that a JSON value names. -/
def ofJson? : Json → Option Medium
  | .str name => ofName? name
  | _ => none

/-- The medium that a JSON value names, or why it names none. -/
def ofJson (value : Json) : Except FilterError Medium :=
  match ofJson? value with
  | some medium => .ok medium
  | none => .error (.unknownContentType (.plain value))

/-- The medium that a value names, or why it names none. -/
def ofValue (value : Value) : Except FilterError Medium :=
  match ofValue? value with
  | some medium => .ok medium
  | none => .error (.unknownContentType value)

end Medium

/-- What is said where a value that is to be shown or written has no text. -/
def TextFault.message : TextFault → String
  | .longInteger =>
    "Exceeds the limit (4300 digits) for integer string conversion; " ++
      "use sys.set_int_max_str_digits() to increase the limit"
  | .tooDeep => "maximum recursion depth exceeded while getting the repr of an object"

/-- The message about a content type that is neither of the two names. Where it cannot be shown,
that is what the message is about. -/
def unknownContentTypeMessage (room : Option Nat) (given : Value) : String :=
  match given.textFault? room with
  | some fault => fault.message
  | none => "Unknown content type " ++ given.literal ++ ", expected one of ('movie', 'tv')"

end FilmQuery
