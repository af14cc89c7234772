/-
# Non-negative fractions

Exact fractions of natural numbers, kept as they come and never reduced.  They carry every
computation in which a number is rounded: the rounding itself is `roundDiv`, to the nearest, a half
to the even neighbour.
-/

namespace FilmQuery.Number

/-- The natural number nearest to `num / den`; a half goes to the even neighbour. -/
def roundDiv (num den : Nat) : Nat :=
  let quotient := num / den
  let twice := 2 * (num % den)
  if twice < den then quotient
  else if den < twice then quotient + 1
  else quotient + quotient % 2

/-- The decimal digits of a number, the highest first. -/
def decimalDigits (n : Nat) : List Char := Nat.toDigits 10 n

/-- The exponent of the highest decimal digit of a positive number. -/
def log10 (n : Nat) : Nat := (decimalDigits n).length - 1

/-- The fraction `num / den`; the denominator is never zero where one is built. -/
structure Ratio where
  num : Nat
  den : Nat
  deriving DecidableEq, Repr

namespace Ratio

/-- A natural number as a fraction. -/
def ofNat (n : Nat) : Ratio := ⟨n, 1⟩

/-- The fraction times `base ^ exponent`. -/
def scale (base : Nat) (exponent : Int) (r : Ratio) : Ratio :=
  if 0 ≤ exponent then ⟨r.num * Nat.pow base exponent.toNat, r.den⟩
  else ⟨r.num, r.den * Nat.pow base (-exponent).toNat⟩

/-- The natural number nearest to the fraction, a half going to the even neighbour. -/
def round (r : Ratio) : Nat := roundDiv r.num r.den

/-- The greatest natural number not above the fraction. -/
def floor (r : Ratio) : Nat := r.num / r.den

/-- Whether the fraction reaches `1`. -/
def reachesOne (r : Ratio) : Bool := decide (r.den ≤ r.num)

/-- The greatest `e` with `2 ^ e` not above the fraction, which has to be positive. -/
def floorLog2 (r : Ratio) : Int :=
  let e : Int := r.num.log2 - r.den.log2
  if (r.scale 2 (-e)).reachesOne then e else e - 1

/-- The greatest `e` with `10 ^ e` not above the fraction, which has to be positive. -/
def floorLog10 (r : Ratio) : Int :=
  let e : Int := log10 r.num - log10 r.den
  if (r.scale 10 (-e)).reachesOne then e else e - 1

end Ratio

end FilmQuery.Number
