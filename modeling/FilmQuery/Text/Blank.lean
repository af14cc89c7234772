/-
# Blanks

Every character that separates words without being seen: the blanks of the Latin keyboard, the
information separators, and the spaces of the other scripts.  A zero-width space is not a blank.
-/
import FilmQuery.Text.CodeRuns

namespace FilmQuery.Text

/-- The code points of the blanks, in ascending runs. -/
def blankRuns : CodeRuns :=
  [(0x9, 0xD), (0x1C, 0x20), (0x85, 0x85), (0xA0, 0xA0), (0x1680, 0x1680), (0x2000, 0x200A),
   (0x2028, 0x2029), (0x202F, 0x202F), (0x205F, 0x205F), (0x3000, 0x3000)]

/-- Whether a character is a blank. -/
def isBlank (c : Char) : Bool := blankRuns.covers c.toNat

/-- The text without the blanks at its two ends. -/
def trim (text : List Char) : List Char :=
  ((text.dropWhile isBlank).reverse.dropWhile isBlank).reverse

/-- The string without the blanks at its two ends. -/
def trimString (text : String) : String := String.ofList (trim text.toList)

end FilmQuery.Text
