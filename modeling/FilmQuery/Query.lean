/-
# Understanding a query

The rules of a table are tried in order on what is left of the text.  All occurrences of one rule
are judged on the same text; those that are accepted become fragments and are then taken out, so
that no later rule sees their characters.  Every character keeps its place in the query throughout.
-/
import FilmQuery.Rule.Default

namespace FilmQuery

/-- Characters with their places in the query. -/
abbrev PlacedText := List (Nat × Char)

namespace PlacedText

/-- The text of a query, with every character at its place. -/
def ofText (text : List Char) : PlacedText := text.zipIdx.map fun (c, place) => (place, c)

/-- The characters. -/
def chars (text : PlacedText) : List Char := text.map Prod.snd

/-- The places. -/
def places (text : PlacedText) : List Nat := text.map Prod.fst

/-- The places of the characters from `start` up to `stop`. -/
def placesBetween (text : PlacedText) (start stop : Nat) : List Nat :=
  ((text.drop start).take (stop - start)).map Prod.fst

end PlacedText

/-- Takes spans out of a text whose first character is the one numbered `done`. The spans are in
ascending order and do not overlap. -/
def exciseFrom (done : Nat) : List (Nat × Nat) → PlacedText → PlacedText
  | [], text => text
  | (start, stop) :: spans, text =>
    text.take (start - done) ++ exciseFrom stop spans (text.drop (stop - done))

/-- Takes spans out of a text. -/
def excise (spans : List (Nat × Nat)) (text : PlacedText) : PlacedText := exciseFrom 0 spans text

/-- A phrase that was passed over because it could not be made into a fragment. -/
structure Warning where
  rule : Nat
  kind : Kind
  text : String
  deriving DecidableEq

/-- What has been read from a text: fragments in the order in which they were made, the phrases
passed over, and what is left of the text. -/
structure Reading where
  fragments : List Fragment
  warnings : List Warning
  rest : PlacedText

namespace Rule

/-- The occurrences of a rule that take characters, each with what becomes of it. -/
def findings (rule : Rule) (text : PlacedText) : List (Occurrence × Verdict) :=
  ((rule.shape.find text.chars).filter (!·.isEmpty)).map fun m => (m, rule.judge m)

/-- The fragment of an accepted occurrence. -/
def fragment? (rule : Rule) (index run : Nat) (text : PlacedText) :
    Occurrence × Verdict → Option Fragment
  | (m, .accepted value label) =>
    let offsets := text.placesBetween m.start m.stop
    some
      { id := .made rule.kind index run (offsets.head?.getD 0)
        kind := rule.kind
        value, label, offsets
        source := String.ofList m.text }
  | _ => none

/-- The span of an accepted occurrence. -/
def span? : Occurrence × Verdict → Option (Nat × Nat)
  | (m, .accepted _ _) => some (m.start, m.stop)
  | _ => none

/-- The warning about an occurrence that failed. -/
def warning? (rule : Rule) (index : Nat) : Occurrence × Verdict → Option Warning
  | (m, .failed _) => some ⟨index, rule.kind, String.ofList m.text⟩
  | _ => none

/-- Reads a text by one rule. -/
def read (rule : Rule) (index run : Nat) (text : PlacedText) : Reading :=
  let findings := rule.findings text
  ⟨findings.filterMap (rule.fragment? index run text), findings.filterMap (rule.warning? index),
    excise (findings.filterMap span?) text⟩

end Rule

/-- Reads a text by one rule after another, the first of which has the number `index`. -/
def readRules (run : Nat) : (index : Nat) → List Rule → PlacedText → Reading
  | _, [], text => ⟨[], [], text⟩
  | index, rule :: rules, text =>
    let first := rule.read index run text
    let later := readRules run (index + 1) rules first.rest
    ⟨first.fragments ++ later.fragments, first.warnings ++ later.warnings, later.rest⟩

/-- Reads a query by the rules of a table; `run` sets the fragments apart from those of other
readings. A blank query is not looked at. -/
def Table.read (table : Table) (run : Nat) (query : List Char) : Reading :=
  let text := PlacedText.ofText query
  if query.all Text.isBlank then ⟨[], [], text⟩ else readRules run 0 table.rules text

/-- The fragments of a query. Only a text has any. -/
def Table.fragments (table : Table) (run : Nat) : Json → List Fragment
  | .str query => (table.read run query.toList).fragments
  | _ => []

end FilmQuery
