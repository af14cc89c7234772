/-
# Search sessions

A session holds one query at a time with the fragments found in it, which can be removed one by
one, and the filters to which they are applied in the end.  It counts, over its whole life, how
often each kind of fragment was found.
-/
import FilmQuery.Patch.Merge
import FilmQuery.Query
import FilmQuery.Tally

namespace FilmQuery

/-- A search session. -/
structure Session where
  table : Table
  contentType : Value
  query : Json
  chips : List Fragment
  filters : Filters
  counts : Tally Kind
  /-- How many queries have been read; it sets the fragments of one reading apart from others. -/
  readings : Nat

namespace Session

/-- A fresh session. The content type has to be one of the two names. -/
def start (table : Table) (contentType : Json) (filters : Json.Fields) :
    Except FilterError Session :=
  (Medium.ofJson contentType).map fun medium =>
    ⟨table, .text medium.name, .str "", [], .ofFields filters, {}, 0⟩

/-- Reads a query anew. What was found before is gone, removed or not; a value that says nothing is
the empty query. -/
def parse (s : Session) (query : Json) : Session :=
  let query := if query.truthy then query else .str ""
  let chips := s.table.fragments s.readings query
  { s with
    query, chips
    counts := s.counts.addAll (chips.map (·.kind))
    readings := s.readings + 1 }

/-- Removes the fragment of an identifier, if there is one. -/
def remove (s : Session) (id : FragmentId) : Session :=
  { s with chips := withoutFragment s.chips id }

/-- Drops the query and its fragments. -/
def clear (s : Session) : Session := { s with query := .str "", chips := [] }

/-- Changes what is searched for. -/
def setContentType (s : Session) (value : Json) : Except FilterError Session :=
  (Medium.ofJson value).map fun medium => { s with contentType := .text medium.name }

/-- The patch of the fragments that are left. -/
def buildPatch (s : Session) : Except FilterError Patch := do
  let medium ← Medium.ofValue s.contentType
  Patch.ofFragments medium s.chips

/-- Merges the patch into the filters, and adopts the content type that it sets. An empty patch
changes nothing. -/
def apply (s : Session) : Except FilterError (Patch × Session) := do
  let patch ← s.buildPatch
  let changes ← patch.filters
  if changes.isEmpty then pure (patch, s)
  else
    let filters ← s.filters.merge changes
    let contentType := if patch.contentType = .nothing then s.contentType else patch.contentType
    pure (patch, { s with filters, contentType })

/-- Empties the filters. -/
def reset (s : Session) : Session := { s with filters := [] }

end Session

/-- What can be asked of a session. -/
inductive SessionOp where
  | parse (query : Json)
  | remove (id : FragmentId)
  | clear
  | setContentType (value : Json)
  | buildPatch
  | apply
  | reset

/-- The session after an operation. One that fails changes nothing. -/
def Session.step (s : Session) : SessionOp → Except FilterError Session
  | .parse query => .ok (s.parse query)
  | .remove id => .ok (s.remove id)
  | .clear => .ok s.clear
  | .setContentType value => s.setContentType value
  | .buildPatch => s.buildPatch.map fun _ => s
  | .apply => s.apply.map Prod.snd
  | .reset => .ok s.reset

/-- The session after some operations, of which those that fail are passed over. -/
def Session.run (s : Session) (ops : List SessionOp) : Session :=
  ops.foldl (fun s op => match s.step op with | .ok next => next | .error _ => s) s

end FilmQuery
