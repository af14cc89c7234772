/-
# Occurrences of a pattern in a text

A text is swept from left to right.  At each place the preferred way of the pattern gives an
occurrence; if it takes no character, the preferred way that does take one gives another.  The
sweep goes on behind the characters taken, so occurrences never overlap.
-/
import FilmQuery.Pattern.Search

namespace FilmQuery

/-- An occurrence of a pattern: the places where it begins and ends, the text between them, the
number of groups of the pattern, and by their numbers what they have met, the last one completed
first. -/
structure Occurrence where
  start : Nat
  stop : Nat
  text : List Char
  groupCount : Nat
  captures : List (Nat × List Char)
  deriving DecidableEq, Repr

/-- Why an occurrence cannot be made into a fragment. -/
inductive Fault where
  /-- The pattern has no group of that number. -/
  | missingGroup (index : Nat)
  /-- No group was completed, and one is needed. -/
  | noGroupCompleted
  /-- The value has not the form that its kind is shown in. -/
  | wrongForm
  /-- The value has no text to be shown by. -/
  | noText
  /-- The extractor has failed for a reason of its own. -/
  | refused
  deriving DecidableEq, Repr

namespace Occurrence

/-- Whether the occurrence takes no character. -/
def isEmpty (m : Occurrence) : Bool := m.start == m.stop

/-- What a group has met, of several times the last one; nothing if it had no part in the
occurrence. Group zero is the occurrence itself. -/
def group (m : Occurrence) (index : Nat) : Except Fault (Option (List Char)) :=
  if index = 0 then .ok (some m.text)
  else if m.groupCount < index then .error (.missingGroup index)
  else .ok (m.captures.lookup index)

/-- The group that was completed last. -/
def lastGroup? (m : Occurrence) : Option Nat := m.captures.head?.map Prod.fst

end Occurrence

namespace Pattern

/-- The occurrence of a pattern that begins at one place and ends at another. -/
def occurrenceBetween (pattern : Pattern) (opened closed : Place) : Occurrence :=
  ⟨opened.position, closed.position, opened.rest.take (closed.position - opened.position),
    pattern.groupCount, closed.captures.map fun capture => (capture.index, capture.text)⟩

/-- The occurrences that begin at a place: the preferred one, and if that takes no character also
the preferred one that does. -/
def occurrencesAt (blind : Bool) (pattern : Pattern) (p : Place) : List Occurrence :=
  match pattern.seek blind some p with
  | none => []
  | some q =>
    if q.position = p.position then
      let taking := pattern.seek blind (fun r => if r.position = p.position then none else some r) p
      pattern.occurrenceBetween p q :: (taking.map (pattern.occurrenceBetween p)).toList
    else [pattern.occurrenceBetween p q]

/-- The number of characters taken by the occurrences that begin at one place. -/
def taken (found : List Occurrence) : Nat :=
  match found.getLast? with
  | some m => m.stop - m.start
  | none => 0

/-- Sweeps the rest of a text; `skip` characters of it belong to the occurrence found last. -/
def sweep (blind : Bool) (pattern : Pattern) :
    (skip : Nat) → (previous : Option Char) → (position : Nat) → List Char → List Occurrence
  | skip, previous, position, [] =>
    if skip = 0 then pattern.occurrencesAt blind ⟨previous, position, [], []⟩ else []
  | skip, previous, position, c :: rest =>
    if skip = 0 then
      let found := pattern.occurrencesAt blind ⟨previous, position, c :: rest, []⟩
      found ++ sweep blind pattern (taken found - 1) (some c) (position + 1) rest
    else sweep blind pattern (skip - 1) (some c) (position + 1) rest

/-- The occurrences of a pattern in a text, from left to right. -/
def occurrences (blind : Bool) (pattern : Pattern) (text : List Char) : List Occurrence :=
  sweep blind pattern 0 none 0 text

end Pattern

end FilmQuery
