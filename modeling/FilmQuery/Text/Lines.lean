/-
# Lines

Text files end their lines in three ways; `lines` knows all of them.  What a line separator of
another script does to a text is no business of this module.
-/

namespace FilmQuery.Text

/-- The text with every line end written as a single newline. -/
def unifyLineEnds : List Char → List Char
  | [] => []
  | '\r' :: '\n' :: rest => '\n' :: unifyLineEnds rest
  | '\r' :: rest => '\n' :: unifyLineEnds rest
  | c :: rest => c :: unifyLineEnds rest

/-- The pieces of a text between its newlines; a text without a newline is one piece. -/
def splitAtNewlines : List Char → List (List Char)
  | [] => [[]]
  | c :: rest =>
    if c = '\n' then [] :: splitAtNewlines rest
    else
      match splitAtNewlines rest with
      | [] => [[c]]
      | piece :: pieces => (c :: piece) :: pieces

/-- The lines of a text file. -/
def lines (text : List Char) : List (List Char) := splitAtNewlines (unifyLineEnds text)

/-- Empties the lines that hold nothing but spaces and tabs. -/
def emptyBlankLines (text : List Char) : List Char :=
  List.intercalate ['\n'] <| (splitAtNewlines text).map fun line =>
    if line.all fun c => c == ' ' || c == '\t' then [] else line

end FilmQuery.Text
