/-
# Quoted literals

A text inside a message is shown between quotes, so that blanks at its ends and characters without
a visible form can be told.  Single quotes are preferred; a text that has a single quote and no
double quote takes double quotes.
-/
import FilmQuery.Text.Hex
import FilmQuery.Text.Visible

namespace FilmQuery.Text

/-- The quote that a text is shown in. -/
def quoteFor (text : List Char) : Char :=
  if text.contains '\'' && !text.contains '"' then '"' else '\''

/-- A character inside quotes: the quote and the backslash get a backslash, and what has no visible
form is written by its code point, in as few digits as the form allows. -/
def quotedChar (quote c : Char) : List Char :=
  if c = quote ∨ c = '\\' then ['\\', c]
  else if c = '\t' then ['\\', 't']
  else if c = '\n' then ['\\', 'n']
  else if c = '\r' then ['\\', 'r']
  else if isVisible c then [c]
  else if c.toNat ≤ 0xFF then '\\' :: 'x' :: hex 2 c.toNat
  else if c.toNat ≤ 0xFFFF then '\\' :: 'u' :: hex 4 c.toNat
  else '\\' :: 'U' :: hex 8 c.toNat

/-- The quoted literal of a text. -/
def quoted (text : List Char) : List Char :=
  let quote := quoteFor text
  quote :: (text.flatMap (quotedChar quote) ++ [quote])

/-- The quoted literal of a string. -/
def quotedString (text : String) : String := String.ofList (quoted text.toList)

end FilmQuery.Text
