/-
# Extractors

An extractor reads the value of a fragment off an occurrence.  It gives `Value.nothing` for an
occurrence whose form is right but which says nothing, such as a rating beyond the scale, and it
fails when it asks for a group that the pattern does not have.
-/
import FilmQuery.Catalog
import FilmQuery.Fragment.Value
import FilmQuery.Number.Numeral
import FilmQuery.Pattern.Occurrence

namespace FilmQuery

open Number (Binary64 Numeral.integer? Numeral.real?)

/-- Reads the value of a fragment off an occurrence. -/
abbrev Extractor := Occurrence → Except Fault Value

namespace Extractor

/-- A year as it was typed: four characters that write a whole number. -/
def year? (text : List Char) : Option String :=
  if text.length = 4 ∧ (Numeral.integer? text).isSome then some (String.ofList text) else none

/-- Whether a number is on the scale of ratings, from zero to ten. -/
def isOnScale (x : Binary64) : Bool := Binary64.zero.le x && x.le (Binary64.ofInt 10)

/-- A rating: a number on its scale. -/
def rating? (text : List Char) : Option Binary64 := (Numeral.real? text).filter isOnScale

/-- The year that a group has met. -/
def groupYear (m : Occurrence) (index : Nat) : Except Fault (Option String) :=
  (m.group index).map (·.bind year?)

/-- The rating that a group has met. -/
def groupRating (m : Occurrence) (index : Nat) : Except Fault (Option Binary64) :=
  (m.group index).map (·.bind rating?)

/-- The rating that the group completed last has met. -/
def lastRating (m : Occurrence) : Except Fault (Option Binary64) :=
  match m.lastGroup? with
  | some index => groupRating m index
  | none => .error .noGroupCompleted

/-- The first year, from the second group. -/
def yearFrom : Extractor := fun m =>
  (groupYear m 2).map fun
    | some year => .years ⟨some year, none⟩
    | none => .nothing

/-- The last year, from the second group. -/
def yearTo : Extractor := fun m =>
  (groupYear m 2).map fun
    | some year => .years ⟨none, some year⟩
    | none => .nothing

/-- A single year, from the first group. -/
def yearExact : Extractor := fun m =>
  (groupYear m 1).map fun
    | some year => .years ⟨some year, some year⟩
    | none => .nothing

/-- First and last year, from the first two groups. A range that runs backward in the order of its
characters says nothing. -/
def yearRange : Extractor := fun m => do
  let start ← groupYear m 1
  let stop ← groupYear m 2
  match start, stop with
  | some start, some stop =>
    pure (if stop < start then .nothing else .years ⟨some start, some stop⟩)
  | _, _ => pure .nothing

/-- The lowest rating, from the group completed last. -/
def ratingMin : Extractor := fun m =>
  (lastRating m).map fun
    | some low => .ratings ⟨some low, none⟩
    | none => .nothing

/-- The highest rating, from the group completed last. -/
def ratingMax : Extractor := fun m =>
  (lastRating m).map fun
    | some high => .ratings ⟨none, some high⟩
    | none => .nothing

/-- Lowest and highest rating, from the first two groups. A range that runs downward says
nothing. -/
def ratingRange : Extractor := fun m => do
  let low ← groupRating m 1
  let high ← groupRating m 2
  match low, high with
  | some low, some high =>
    pure (if high.lt low then .nothing else .ratings ⟨some low, some high⟩)
  | _, _ => pure .nothing

/-- The genre that the group completed last names, or the phrase itself if there is none. -/
def genre : Extractor := fun m =>
  (m.group (m.lastGroup?.getD 0)).map fun word =>
    match Catalog.genreId? (word.getD []) with
    | some id => .number id
    | none => .nothing

end Extractor

end FilmQuery
