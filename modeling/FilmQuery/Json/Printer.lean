/-
# Writing JSON

One writer for two uses: a text to look at, with a line for every item, and one line of a log.
A `JsonStyle` says which of the two it is, whether fields are put in the order of their keys, and
whether characters beyond ASCII are written by their code.

Not every value can be written: whole numbers can be too long, and every bracket that is open takes
some room (`Json.fault?`).
-/
import FilmQuery.Json.Basic
import FilmQuery.Number.Decimal
import FilmQuery.Number.Numeral
import FilmQuery.Text.Hex

namespace FilmQuery

open Number (Binary64 decimalDigits Numeral.longestInteger)
open Text (hex)

/-- How a JSON value is set out. -/
structure JsonStyle where
  /-- The spaces by which the items of a container stand in from it; without, all is one line. -/
  indent : Option Nat
  /-- Whether only ASCII characters are written. -/
  ascii : Bool

namespace Json

/-- A code unit of sixteen bits as an escape. -/
def unitEscape (unit : Nat) : List Char := '\\' :: 'u' :: hex 4 unit

/-- The escape of a character by its code; one beyond sixteen bits takes two. -/
def codeEscape (c : Char) : List Char :=
  let n := c.toNat
  if n < 0x10000 then unitEscape n
  else
    let offset := n - 0x10000
    unitEscape (0xD800 + offset / 0x400) ++ unitEscape (0xDC00 + offset % 0x400)

/-- A character of a string. -/
def stringChar (ascii : Bool) (c : Char) : List Char :=
  if c = '"' then ['\\', '"']
  else if c = '\\' then ['\\', '\\']
  else if c = '\n' then ['\\', 'n']
  else if c = '\r' then ['\\', 'r']
  else if c = '\t' then ['\\', 't']
  else if c = '\x08' then ['\\', 'b']
  else if c = '\x0c' then ['\\', 'f']
  else if c.toNat < 0x20 then codeEscape c
  else if ascii && 0x7f ≤ c.toNat then codeEscape c
  else [c]

/-- A string between its quotes. -/
def stringText (ascii : Bool) (text : String) : List Char :=
  '"' :: (text.toList.flatMap (stringChar ascii) ++ ['"'])

/-- A whole number. -/
def intText (n : Int) : List Char :=
  if n < 0 then '-' :: decimalDigits n.natAbs else decimalDigits n.natAbs

/-- A double; the three without digits are written by name. -/
def realText : Binary64 → List Char
  | .nan => "NaN".toList
  | .infinite negative => (if negative then "-Infinity" else "Infinity").toList
  | x => x.shortestText.toList

/-- What stands before an item at the given depth. -/
def JsonStyle.lineStart (style : JsonStyle) (depth : Nat) : List Char :=
  match style.indent with
  | some width => '\n' :: List.replicate (width * depth) ' '
  | none => []

/-- What stands between two items at the given depth. -/
def JsonStyle.separator (style : JsonStyle) (depth : Nat) : List Char :=
  match style.indent with
  | some _ => ',' :: JsonStyle.lineStart style depth
  | none => [',', ' ']

/-- The pieces of a container between its brackets, or the empty container. -/
def enclose (style : JsonStyle) (depth : Nat) (opening closing : Char) :
    List (List Char) → List Char
  | [] => [opening, closing]
  | pieces =>
    opening :: (JsonStyle.lineStart style (depth + 1) ++
      (List.intercalate (JsonStyle.separator style (depth + 1)) pieces ++
        (JsonStyle.lineStart style depth ++ [closing])))

mutual

/-- The text of a value whose container stands at the given depth. -/
def write (style : JsonStyle) (depth : Nat) : Json → List Char
  | .null => "null".toList
  | .bool value => (if value then "true" else "false").toList
  | .int value => intText value
  | .real value => realText value
  | .str text => stringText style.ascii text
  | .arr items => enclose style depth '[' ']' (writeItems style (depth + 1) items)
  | .obj fields => enclose style depth '\x7b' '\x7d' (writeFields style (depth + 1) fields)

/-- The texts of the items of a list. -/
def writeItems (style : JsonStyle) (depth : Nat) : List Json → List (List Char)
  | [] => []
  | item :: rest => write style depth item :: writeItems style depth rest

/-- The texts of the fields of an object. -/
def writeFields (style : JsonStyle) (depth : Nat) : List (String × Json) → List (List Char)
  | [] => []
  | (key, value) :: rest =>
    (stringText style.ascii key ++ ':' :: ' ' :: write style depth value) ::
      writeFields style depth rest

end

mutual

/-- The value with the fields of every object in the order of their keys. -/
def sortKeys : Json → Json
  | .arr items => .arr (sortItems items)
  | .obj fields => .obj ((sortFields fields).mergeSort fun a b => decide (a.1 ≤ b.1))
  | leaf => leaf

/-- The items of a list with sorted keys. -/
def sortItems : List Json → List Json
  | [] => []
  | item :: rest => sortKeys item :: sortItems rest

/-- The fields of an object, each with sorted keys inside. -/
def sortFields : List (String × Json) → List (String × Json)
  | [] => []
  | (key, value) :: rest => (key, sortKeys value) :: sortFields rest

end

/-- The text of a value in a style. -/
def print (style : JsonStyle) (value : Json) : String := String.ofList (write style 0 value)

end Json

/-- Why a value has no text. -/
inductive TextFault where
  /-- A whole number has more digits than are written. -/
  | longInteger
  /-- Lists and objects stand deeper inside one another than there is room for. -/
  | tooDeep
  deriving DecidableEq

namespace Json

/-- Whether a whole number has more digits than are written. -/
def isLong (n : Int) : Bool := decide (Numeral.longestInteger < (decimalDigits n.natAbs).length)

mutual

/-- The first fault of a value, if it has one, where there is room for so many open brackets;
without a bound all can be open. -/
def fault? (room : Option Nat) : Json → Option TextFault
  | .int value => if isLong value then some .longInteger else none
  | .arr items => if room = some 0 then some .tooDeep else itemsFault? (room.map (· - 1)) items
  | .obj fields => if room = some 0 then some .tooDeep else fieldsFault? (room.map (· - 1)) fields
  | _ => none

/-- The first fault of some items. -/
def itemsFault? (room : Option Nat) : List Json → Option TextFault
  | [] => none
  | item :: rest => (fault? room item).or (itemsFault? room rest)

/-- The first fault of the values of some fields. -/
def fieldsFault? (room : Option Nat) : List (String × Json) → Option TextFault
  | [] => none
  | (_, value) :: rest => (fault? room value).or (fieldsFault? room rest)

end

/-- The text of a value in a style, if it has one. -/
def print? (style : JsonStyle) (room : Option Nat) (value : Json) : Except TextFault String :=
  match value.fault? room with
  | some fault => .error fault
  | none => .ok (value.print style)

end Json

end FilmQuery
