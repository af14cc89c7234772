/-
# Scores of a reading

How well the fragments found in a query agree with those that were expected, as lists in which the
same item may stand several times.  The scores are stated over any arithmetic: in exact fractions
they have their laws, and in doubles they are what is written down.
-/
import FilmQuery.Number.Binary64

namespace FilmQuery

open Number (Binary64)

/-- The operations that the scores are worked out with. -/
structure Arithmetic (β : Type) where
  /-- The quotient of two counts, the second of which is not zero. -/
  quotient : Nat → Nat → β
  add : β → β → β
  mul : β → β → β
  div : β → β → β
  isZero : β → Bool

/-- Exact fractions. -/
def Arithmetic.exact : Arithmetic Rat :=
  ⟨fun m n => (m : Rat) / (n : Rat), (· + ·), (· * ·), (· / ·), (· == 0)⟩

/-- Doubles, each operation rounded for itself. -/
def Arithmetic.doubles : Arithmetic Binary64 :=
  ⟨Binary64.ofQuotient, Binary64.add, Binary64.mul, Binary64.div, Binary64.isZero⟩

namespace Score

variable {α β : Type} [DecidableEq α]

/-- How many items two lists have in common, each as often as it stands in both: whatever was
predicted is crossed off the expected. -/
def overlap : List α → List α → Nat
  | [], _ => 0
  | x :: predicted, expected =>
    if x ∈ expected then overlap predicted (expected.erase x) + 1 else overlap predicted expected

/-- One, in an arithmetic. -/
def one (arith : Arithmetic β) : β := arith.quotient 1 1

/-- Zero, in an arithmetic. -/
def zero (arith : Arithmetic β) : β := arith.quotient 0 1

/-- The share of what was found that was expected. Nothing found is right if nothing was
expected. -/
def precision (arith : Arithmetic β) (predicted expected : List α) : β :=
  if predicted.isEmpty then (if expected.isEmpty then one arith else zero arith)
  else arith.quotient (overlap predicted expected) predicted.length

/-- The share of what was expected that was found, also called recall. -/
def coverage (arith : Arithmetic β) (predicted expected : List α) : β :=
  if expected.isEmpty then one arith
  else arith.quotient (overlap predicted expected) expected.length

/-- The harmonic mean of two scores; zero if both are. -/
def harmonicMean (arith : Arithmetic β) (p r : β) : β :=
  if arith.isZero (arith.add p r) then zero arith
  else arith.div (arith.mul (arith.mul (arith.quotient 2 1) p) r) (arith.add p r)

/-- The harmonic mean of precision and coverage. -/
def f1 (arith : Arithmetic β) (predicted expected : List α) : β :=
  harmonicMean arith (precision arith predicted expected) (coverage arith predicted expected)

/-- Whether two lists have the same items, each equally often. -/
def sameItems (predicted expected : List α) : Bool :=
  (predicted ++ expected).all fun x => predicted.count x == expected.count x

/-- One if the lists have the same items equally often, zero otherwise. -/
def exactMatch (arith : Arithmetic β) (predicted expected : List α) : β :=
  if sameItems predicted expected then one arith else zero arith

end Score

/-- The four scores of a reading. -/
structure Scores where
  precision : Binary64
  coverage : Binary64
  f1 : Binary64
  exactMatch : Binary64
  deriving DecidableEq

/-- The scores of what was found against what was expected. -/
def Scores.of {α : Type} [DecidableEq α] (predicted expected : List α) : Scores :=
  ⟨Score.precision .doubles predicted expected, Score.coverage .doubles predicted expected,
    Score.f1 .doubles predicted expected, Score.exactMatch .doubles predicted expected⟩

/-- The scores of a query that could not be read. -/
def Scores.none : Scores := ⟨Binary64.zero, Binary64.zero, Binary64.zero, Binary64.zero⟩

end FilmQuery
