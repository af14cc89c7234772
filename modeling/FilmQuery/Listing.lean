/-
# Listing fragments

Fragments as numbered lines to read, and as rows for tables and logs.
-/
import FilmQuery.Fragment.Basic
import FilmQuery.Text.Blank

namespace FilmQuery

/-- The line of a fragment: its number, its label, and if asked for the phrase it was read from. -/
def fragmentLine (showSource : Bool) (number : Nat) (f : Fragment) : String :=
  String.ofList (Number.decimalDigits number) ++ ". " ++ f.label ++
    (if showSource then "  <- \"" ++ Text.trimString f.source ++ "\"" else "")

/-- The numbered lines of some fragments. -/
def fragmentLines (showSource : Bool) (fragments : List Fragment) : List String :=
  fragments.zipIdx.map fun (f, index) => fragmentLine showSource (index + 1) f

/-- The fragments as a text. -/
def fragmentListing (showSource : Bool) (fragments : List Fragment) : String :=
  if fragments.isEmpty then "(no filters detected)"
  else "\n".intercalate (fragmentLines showSource fragments)

/-- A fragment as a row. -/
def fragmentRow (f : Fragment) : Json.Fields :=
  [("id", .str f.id.text), ("kind", .str f.kind.name), ("label", .str f.label),
    ("source", .str f.source)]

/-- The fragments as rows. -/
def fragmentRows (fragments : List Fragment) : List Json.Fields := fragments.map fragmentRow

end FilmQuery
