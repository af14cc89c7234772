/-
# Reading a query again

Readings are numbered, and the number of a reading shows in the identifiers of its fragments and
nowhere else.  So a query that is read again gives the same fragments under other identifiers
(`Table.fragments_inReading`), and these come to the same patch (`Patch.ofFragments_inReading`).
-/
import FilmQuery.Patch.Basic
import FilmQuery.Query
import Mathlib.Data.List.Basic

namespace FilmQuery

/-- The identifier that a fragment has in a reading of another number. -/
def FragmentId.inReading (run : Nat) : FragmentId → FragmentId
  | .made kind rule _ place => .made kind rule run place
  | .named name => .named name

/-- The fragment as a reading of another number finds it. -/
def Fragment.inReading (run : Nat) (f : Fragment) : Fragment := { f with id := f.id.inReading run }

section Reading

variable (run other : Nat)

theorem Rule.fragment?_inReading (rule : Rule) (index : Nat) (text : PlacedText)
    (finding : Occurrence × Verdict) :
    rule.fragment? index other text finding =
      (rule.fragment? index run text finding).map (Fragment.inReading other) := by
  obtain ⟨m, verdict⟩ := finding
  cases verdict <;> rfl

theorem Rule.read_inReading (rule : Rule) (index : Nat) (text : PlacedText) :
    (rule.read index other text).fragments =
        (rule.read index run text).fragments.map (Fragment.inReading other) ∧
      (rule.read index other text).rest = (rule.read index run text).rest := by
  refine ⟨?_, rfl⟩
  rw [Rule.read, Rule.read, List.map_filterMap]
  exact List.filterMap_congr fun finding _ => rule.fragment?_inReading run other index text finding

theorem readRules_inReading (index : Nat) (rules : List Rule) (text : PlacedText) :
    (readRules other index rules text).fragments =
      (readRules run index rules text).fragments.map (Fragment.inReading other) := by
  induction rules generalizing index text with
  | nil => rfl
  | cons rule rules ih =>
      obtain ⟨fragments, rest⟩ := rule.read_inReading run other index text
      simp only [readRules, fragments, rest, ih, List.map_append]

/-- A query that is read again gives the same fragments under other identifiers. -/
theorem Table.fragments_inReading (table : Table) (query : Json) :
    table.fragments other query =
      (table.fragments run query).map (Fragment.inReading other) := by
  cases query with
  | str text =>
      rw [Table.fragments, Table.fragments, Table.read, Table.read]
      split
      · rfl
      · exact readRules_inReading run other 0 table.rules _
  | _ => rfl

end Reading

namespace Patch

variable (run : Nat) (search : Medium)

theorem addAll_inReading (patch : Patch) (fragments : List Fragment) :
    addAll search patch (fragments.map (Fragment.inReading run)) =
      addAll search patch fragments := by
  induction fragments generalizing patch with
  | nil => rfl
  | cons f rest ih =>
      have same : patch.add search (f.inReading run) = patch.add search f := rfl
      rw [List.map_cons, addAll, addAll, same]
      cases patch.add search f with
      | ok next => exact ih next
      | error e => rfl

/-- Fragments come to the same patch under other identifiers. -/
theorem ofFragments_inReading (fragments : List Fragment) :
    ofFragments search (fragments.map (Fragment.inReading run)) = ofFragments search fragments :=
  addAll_inReading run search {} fragments

end Patch

end FilmQuery
