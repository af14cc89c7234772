/-
# Tallies

Counts of things, in the order in which the things first appeared.
-/

namespace FilmQuery

/-- How often each thing was counted, in the order of first appearance. -/
structure Tally (α : Type) where
  entries : List (α × Nat) := []

namespace Tally

variable {α : Type} [DecidableEq α]

/-- Counts a thing once more among some entries. -/
def bump (x : α) : List (α × Nat) → List (α × Nat)
  | [] => [(x, 1)]
  | (y, n) :: rest => if y = x then (y, n + 1) :: rest else (y, n) :: bump x rest

/-- Counts a thing once more. -/
def add (tally : Tally α) (x : α) : Tally α := ⟨bump x tally.entries⟩

/-- Counts some things, one after the other. -/
def addAll (tally : Tally α) (xs : List α) : Tally α := xs.foldl add tally

/-- How often a thing was counted. -/
def count (tally : Tally α) (x : α) : Nat := (tally.entries.lookup x).getD 0

/-- The entries with the highest counts first; of equal counts the first to appear comes first. -/
def byCount (tally : Tally α) : List (α × Nat) :=
  tally.entries.mergeSort fun a b => decide (b.2 ≤ a.2)

end Tally

end FilmQuery
