/-
# Runs of code points

A class of characters is kept as the runs of its code points.  Membership is a search from the
left that stops as soon as a run begins beyond the character.
-/

namespace FilmQuery.Text

/-- Runs of code points, each by its first and its last, in ascending order. -/
abbrev CodeRuns := List (Nat × Nat)

/-- Whether some run has the code point `n`. Later runs lie higher, so a run that begins beyond
`n` settles the question. -/
def CodeRuns.covers : CodeRuns → Nat → Bool
  | [], _ => false
  | (first, last) :: rest, n =>
    if n < first then false else decide (n ≤ last) || CodeRuns.covers rest n

end FilmQuery.Text
