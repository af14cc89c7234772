/-
# JSON values in messages

Messages to people show a value in a notation of their own: nothing and the truth values by
capitalised names, texts as quoted literals.  A text alone on a line is shown as it is.  A value
that has no text (`Json.fault?`) cannot be shown.
-/
import FilmQuery.Json.Printer
import FilmQuery.Text.Quoted

namespace FilmQuery

open Text (quotedString)

namespace Json

mutual

/-- A value as a message shows it. -/
def literal : Json → String
  | .null => "None"
  | .bool value => if value then "True" else "False"
  | .int value => String.ofList (intText value)
  | .real value => value.shortestText
  | .str text => quotedString text
  | .arr items => "[" ++ ", ".intercalate (itemLiterals items) ++ "]"
  | .obj fields => "\x7b" ++ ", ".intercalate (fieldLiterals fields) ++ "\x7d"

/-- The items of a list as a message shows them. -/
def itemLiterals : List Json → List String
  | [] => []
  | item :: rest => literal item :: itemLiterals rest

/-- The fields of an object as a message shows them. -/
def fieldLiterals : List (String × Json) → List String
  | [] => []
  | (key, value) :: rest => (quotedString key ++ ": " ++ literal value) :: fieldLiterals rest

end

/-- A value on a line of its own. -/
def display : Json → String
  | .str text => text
  | other => literal other

/-- A value on a line of its own, if it has a text. -/
def display? (room : Option Nat) (value : Json) : Except TextFault String :=
  match value.fault? room with
  | some fault => .error fault
  | none => .ok value.display

end Json

end FilmQuery
