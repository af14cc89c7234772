/-
# Decimal text of doubles

Three ways to write a double: with the fewest digits that read back as the same double
(`shortest`), with a given number of significant digits (`significant`), and with a given number of
places (`fixed`).  All work in exact arithmetic; how digits and exponent are set out is a
`DecimalLayout`.
-/
import FilmQuery.Number.Binary64

namespace FilmQuery.Number

/-- The number `coefficient * 10 ^ exponent`. -/
structure Decimal where
  coefficient : Nat
  exponent : Int
  deriving DecidableEq, Repr

namespace Decimal

/-- The value as a fraction. -/
def toRatio (d : Decimal) : Ratio := (Ratio.ofNat d.coefficient).scale 10 d.exponent

/-- The decimal with `digits` significant digits nearest to a positive fraction, a half going to
the even neighbour. -/
def nearest (digits : Nat) (r : Ratio) : Decimal :=
  let exponent := r.floorLog10 - (digits - 1 : Nat)
  ⟨(r.scale 10 (-exponent)).round, exponent⟩

/-- Of the two decimals with `digits` significant digits around a double, the one that reads back
as the double; of two, the nearer one, and at equal distance the even one. -/
def readingBack? (rank digits : Nat) : Option Decimal :=
  let r := Binary64.magnitude rank
  let exponent := r.floorLog10 - (digits - 1 : Nat)
  let scaled := r.scale 10 (-exponent)
  let below : Decimal := ⟨scaled.floor, exponent⟩
  let above : Decimal := ⟨scaled.floor + 1, exponent⟩
  let readsBack (d : Decimal) : Bool := Binary64.nearestRank d.toRatio == rank
  match readsBack below, readsBack above with
  | true, true => some ⟨scaled.round, exponent⟩
  | true, false => some below
  | false, true => some above
  | false, false => none

/-- Every digit of a double: its denominator is a power of two, so the expansion ends. -/
def expansion (rank : Nat) : Decimal :=
  let r := Binary64.magnitude rank
  let places := r.den.log2
  ⟨r.num * Nat.pow 10 places / r.den, -(places : Int)⟩

/-- A decimal that reads back as the double of positive rank `rank`, with the fewest digits. -/
def shortest (rank : Nat) : Decimal :=
  ((List.range 17).findSome? fun n => readingBack? rank (n + 1)).getD (expansion rank)

end Decimal

/-- How a decimal is set out. -/
structure DecimalLayout where
  /-- Numbers from `0.0001` up to this power of ten are written without an exponent. -/
  positionalBelow : Int
  /-- Whether a whole number without an exponent ends with `.0`. -/
  showsPoint : Bool

namespace DecimalLayout

/-- An exponent has a sign and at least two digits. -/
def exponentText (e : Int) : List Char :=
  let digits := decimalDigits e.natAbs
  (if e < 0 then '-' else '+') :: (if digits.length < 2 then '0' :: digits else digits)

/-- The text of a decimal. Zeros at the end of the coefficient are not significant. -/
def text (layout : DecimalLayout) (d : Decimal) : List Char :=
  let all := decimalDigits d.coefficient
  let leading : Int := if d.coefficient = 0 then 0 else d.exponent + (all.length - 1 : Nat)
  let digits :=
    match (all.reverse.dropWhile (· == '0')).reverse with
    | [] => ['0']
    | significant => significant
  if -5 < leading ∧ leading < layout.positionalBelow then
    if leading < 0 then
      '0' :: '.' :: (List.replicate (-leading - 1).toNat '0' ++ digits)
    else
      let whole := leading.toNat + 1
      if digits.length ≤ whole then
        digits ++ List.replicate (whole - digits.length) '0' ++
          (if layout.showsPoint then ['.', '0'] else [])
      else digits.take whole ++ '.' :: digits.drop whole
  else
    digits.take 1 ++ (if digits.length = 1 then [] else '.' :: digits.drop 1) ++
      'e' :: exponentText leading

end DecimalLayout

namespace Binary64

/-- The text of a double whose finite magnitude `write` sets out. -/
def textWith (write : Nat → List Char) : Binary64 → List Char
  | .finite negative rank => if negative then '-' :: write rank else write rank
  | .infinite negative => (if negative then "-inf" else "inf").toList
  | .nan => "nan".toList

/-- The fewest digits that read back; numbers below `10 ^ 16` stand without an exponent, and a
whole number among them ends with `.0`. -/
def shortestLayout : DecimalLayout := ⟨16, true⟩

/-- The shortest text that reads back as the double. -/
def shortestText (x : Binary64) : String :=
  String.ofList <| x.textWith fun rank =>
    shortestLayout.text (if rank = 0 then ⟨0, 0⟩ else Decimal.shortest rank)

/-- Significant digits without zeros at the end; a number as long as its digits or longer is
written with an exponent. -/
def significantLayout (digits : Nat) : DecimalLayout := ⟨digits, false⟩

/-- The text with `digits` significant digits. -/
def significantText (digits : Nat) (x : Binary64) : String :=
  String.ofList <| x.textWith fun rank =>
    (significantLayout digits).text
      (if rank = 0 then ⟨0, 0⟩
       else
        let d := Decimal.nearest digits (magnitude rank)
        if d.coefficient = Nat.pow 10 digits then ⟨1, d.exponent + digits⟩ else d)

/-- The text with `places` digits after the point. -/
def fixedText (places : Nat) (x : Binary64) : String :=
  String.ofList <| x.textWith fun rank =>
    let scaled := ((magnitude rank).scale 10 places).round
    let digits := decimalDigits scaled
    let padded := List.replicate (places + 1 - digits.length) '0' ++ digits
    let whole := padded.length - places
    padded.take whole ++ (if places = 0 then [] else '.' :: padded.drop whole)

end Binary64

end FilmQuery.Number
