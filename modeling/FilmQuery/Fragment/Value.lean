/-
# Values of fragments

A fragment says something in one of a few forms: a plain value, mostly a word or a number, some
numbers, years, or ratings.  Ranges have two sides, either of which may be open.  A value is shown
as JSON, but it equals only a value of its own form: some numbers are never equal to a list, and a
range is never equal to an object.
-/
import FilmQuery.Json.Literal

namespace FilmQuery

open Number (Binary64)
open Text (quotedString)

/-- First and last year, as they were typed. -/
structure YearRange where
  start : Option String := none
  stop : Option String := none
  deriving DecidableEq

/-- Lowest and highest rating on the scale of the catalog, from zero to ten. -/
structure RatingRange where
  low : Option Binary64 := none
  high : Option Binary64 := none
  deriving DecidableEq

/-- What a fragment says. -/
inductive Value where
  | plain (value : Json)
  | numbers (ns : List Int)
  | years (range : YearRange)
  | ratings (range : RatingRange)
  deriving DecidableEq

/-- No value. -/
@[match_pattern] abbrev Value.nothing : Value := .plain .null

/-- A word. -/
@[match_pattern] abbrev Value.text (s : String) : Value := .plain (.str s)

/-- A number. -/
@[match_pattern] abbrev Value.number (n : Int) : Value := .plain (.int n)

/-- The sides of a range that are not open, as fields. -/
def sideFields (sides : List (String × Option Json)) : Json.Fields :=
  sides.filterMap fun (key, side) => side.map fun value => (key, value)

/-- The years as a JSON object. -/
def YearRange.toJson (r : YearRange) : Json :=
  .obj (sideFields [("start", r.start.map .str), ("end", r.stop.map .str)])

/-- The ratings as a JSON object. -/
def RatingRange.toJson (r : RatingRange) : Json :=
  .obj (sideFields [("min", r.low.map .real), ("max", r.high.map .real)])

/-- Whether two sides of a rating range are open or have equal values. -/
def sameSide : Option Binary64 → Option Binary64 → Bool
  | none, none => true
  | some x, some y => x.same y
  | _, _ => false

namespace Value

/-- The value as JSON. -/
def toJson : Value → Json
  | .plain value => value
  | .numbers ns => .arr (ns.map .int)
  | .years r => r.toJson
  | .ratings r => r.toJson

/-- Equality of values; the two zeros are one rating. -/
def same : Value → Value → Bool
  | .plain a, .plain b => a.same b
  | .numbers ms, .numbers ns => ms == ns
  | .years r, .years s => r == s
  | .ratings r, .ratings s => sameSide r.low s.low && sameSide r.high s.high
  | _, _ => false

/-- Whether the value says anything; no numbers say nothing, and a range always does. -/
def truthy : Value → Bool
  | .plain value => value.truthy
  | .numbers ns => !ns.isEmpty
  | .years _ | .ratings _ => true

/-- The items of a value, if it has items: the characters of a text and the keys of an object. -/
def items? : Value → Option (List Value)
  | .plain (.arr items) => some (items.map .plain)
  | .plain (.str s) => some (s.toList.map fun c => .text (String.ofList [c]))
  | .plain (.obj fields) => some (fields.map fun (key, _) => .text key)
  | .numbers ns => some (ns.map .number)
  | _ => none

/-- A side of a range as a message shows it. -/
def sideText : Option String → String
  | some side => side
  | none => "None"

/-- The value as a message shows it. -/
def literal : Value → String
  | .plain value => value.literal
  | .numbers ns =>
    match ns.map fun n => String.ofList (Json.intText n) with
    | [only] => "(" ++ only ++ ",)"
    | texts => "(" ++ ", ".intercalate texts ++ ")"
  | .years r =>
    "DateRange(start=" ++ sideText (r.start.map quotedString) ++
      ", end=" ++ sideText (r.stop.map quotedString) ++ ")"
  | .ratings r =>
    "RatingRange(min=" ++ sideText (r.low.map Binary64.shortestText) ++
      ", max=" ++ sideText (r.high.map Binary64.shortestText) ++ ")"

/-- The value on its own: a word as it is, anything else as a message shows it. -/
def display : Value → String
  | .plain value => value.display
  | other => other.literal

/-- Why a value cannot be shown, if it cannot. The sides of a range always can. -/
def textFault? (room : Option Nat) : Value → Option TextFault
  | .plain value => value.fault? room
  | .numbers ns => Json.itemsFault? room (ns.map .int)
  | .years _ | .ratings _ => none

end Value

end FilmQuery
