/-
# Fragments

A fragment is one phrase of a query that has been understood: what it says, how it is shown, and
which characters of the query it was read from.  Those need not stand side by side, because earlier
phrases have been taken out of the text by then.
-/
import FilmQuery.Fragment.Kind
import FilmQuery.Fragment.Value
import FilmQuery.Text.Hex

namespace FilmQuery

/-- What tells a fragment from every other. A fragment made here is named by the rule that made it,
by the run in which it was made, and by the place of its first character; one from elsewhere keeps
the name it came with. -/
inductive FragmentId where
  | named (name : String)
  | made (kind : Kind) (rule run place : Nat)
  deriving DecidableEq

/-- The text of an identifier. The serial number at the end of a made one counts the runs in its
first half and the characters in its second. -/
def FragmentId.text : FragmentId → String
  | .named name => name
  | .made kind rule run place =>
    kind.name ++ "-" ++ String.ofList (Number.decimalDigits rule) ++ "-" ++
      String.ofList (Text.hex 4 run ++ Text.hex 4 place)

/-- A phrase of a query that has been understood. -/
structure Fragment where
  id : FragmentId
  kind : Kind
  value : Value
  label : String
  source : String
  offsets : List Nat := []
  removable : Bool := true
  deriving DecidableEq

namespace Fragment

/-- The place of the first character. -/
def start? (f : Fragment) : Option Nat := f.offsets.head?

/-- The place behind the last character. -/
def stop? (f : Fragment) : Option Nat := f.offsets.getLast?.map (· + 1)

/-- Whether two fragments say the same in the same words, whatever their identifiers and wherever
they were read. -/
def sameSignature (f g : Fragment) : Bool :=
  f.kind == g.kind && f.value.same g.value && f.label == g.label && f.source == g.source

/-- Which of some fragments have the same signature, row by row. Each has its own, even if its value
is a rating that equals no number. -/
def signatureTable (fragments : List Fragment) : List (List Bool) :=
  fragments.zipIdx.map fun (f, i) => fragments.zipIdx.map fun (g, j) => i == j || f.sameSignature g

end Fragment

end FilmQuery
