/-
# Double-precision numbers

A finite double is a sign and a rank: the number of doubles between zero and it.  The rank runs
through the subnormal doubles first and then through one binade after the other, so ranks order
magnitudes, and every rank names exactly one double.  Arithmetic is exact and then rounded to the
nearest double, a half going to the even rank.
-/
import FilmQuery.Number.Ratio

namespace FilmQuery.Number

/-- How many doubles a binade holds: `2 ^ 52`. -/
def binadeSize : Nat := Nat.pow 2 52

/-- How many finite doubles are not negative: the subnormal ones and those of 2046 binades. -/
def rankCount : Nat := 2047 * binadeSize

/-- A double-precision number. The zeros have rank `0`; beyond the last rank lies infinity. -/
inductive Binary64 where
  | finite (negative : Bool) (rank : Fin rankCount)
  | infinite (negative : Bool)
  | nan
  deriving DecidableEq

namespace Binary64

/-- The magnitude of rank `rank`: below `2 ^ 53` the doubles lie `2 ^ -1074` apart, and from there
the distance doubles with every `2 ^ 52` ranks. -/
def magnitude (rank : Nat) : Ratio :=
  let binade := rank / binadeSize
  let significand := if binade = 0 then rank else binadeSize + rank % binadeSize
  (Ratio.ofNat significand).scale 2 ((max binade 1 : Nat) - 1075)

/-- The rank of the double nearest to a fraction, a half going to the even rank. A fraction too
large for the last rank gives a rank beyond it. -/
def nearestRank (r : Ratio) : Nat :=
  if r.num = 0 then 0
  else
    let spacing : Int := max (r.floorLog2 - 52) (-1074)
    (r.scale 2 (-spacing)).round + (spacing + 1074).toNat * binadeSize

/-- The double of a sign and a rank; ranks beyond the last are infinity. -/
def ofRank (negative : Bool) (rank : Nat) : Binary64 :=
  if fits : rank < rankCount then .finite negative ⟨rank, fits⟩ else .infinite negative

/-- The double nearest to a signed fraction. -/
def nearest (negative : Bool) (r : Ratio) : Binary64 := ofRank negative (nearestRank r)

/-- The double nearest to `coefficient * 10 ^ exponent`. Far outside the range of the doubles the
power is not worked out. -/
def ofDecimal (negative : Bool) (coefficient : Nat) (exponent : Int) : Binary64 :=
  if coefficient = 0 then ofRank negative 0
  else
    let order : Int := log10 coefficient + exponent
    if 310 < order then .infinite negative
    else if order < -330 then ofRank negative 0
    else nearest negative ((Ratio.ofNat coefficient).scale 10 exponent)

/-- The double nearest to a rational number. -/
def ofRat (q : Rat) : Binary64 := nearest (decide (q < 0)) ⟨q.num.natAbs, q.den⟩

/-- The double nearest to an integer. -/
def ofInt (n : Int) : Binary64 := nearest (decide (n < 0)) (Ratio.ofNat n.natAbs)

/-- The double nearest to the quotient of two natural numbers. -/
def ofQuotient (num den : Nat) : Binary64 := nearest false ⟨num, den⟩

/-- The exact value of a finite double. -/
def toRat? : Binary64 → Option Rat
  | .finite negative rank =>
    let r := magnitude rank
    some (mkRat (if negative then -(r.num : Int) else r.num) r.den)
  | _ => none

/-- The place of a number on the line of the doubles, counted from zero: both zeros are at `0`,
the infinities one step beyond the last finite doubles. -/
def place? : Binary64 → Option Int
  | .finite negative rank => some (if negative then -(rank.val : Int) else rank.val)
  | .infinite negative => some (if negative then -(rankCount : Int) else rankCount)
  | .nan => none

/-- Equality of values: the two zeros are equal, and `nan` equals nothing. -/
def same (x y : Binary64) : Bool :=
  match x.place?, y.place? with
  | some a, some b => a == b
  | _, _ => false

/-- `x ≤ y`, false when one of them is `nan`. -/
def le (x y : Binary64) : Bool :=
  match x.place?, y.place? with
  | some a, some b => decide (a ≤ b)
  | _, _ => false

/-- `x < y`, false when one of them is `nan`. -/
def lt (x y : Binary64) : Bool :=
  match x.place?, y.place? with
  | some a, some b => decide (a < b)
  | _, _ => false

/-- Whether the sign is negative; `nan` counts as positive. -/
def isNegative : Binary64 → Bool
  | .finite negative _ => negative
  | .infinite negative => negative
  | .nan => false

/-- Whether the number is one of the zeros. -/
def isZero (x : Binary64) : Bool := x.place? == some 0

/-- The double zero. -/
def zero : Binary64 := ofRank false 0

/-- The double one. -/
def one : Binary64 := ofInt 1

/-- The sum. Opposite infinities have none; an exact zero is negative only if both terms are. -/
def add (x y : Binary64) : Binary64 :=
  match x.toRat?, y.toRat? with
  | some a, some b =>
    if a + b = 0 then ofRank (x.isNegative && y.isNegative) 0 else ofRat (a + b)
  | _, _ =>
    match x, y with
    | .infinite a, .infinite b => if a = b then .infinite a else .nan
    | .infinite a, .finite _ _ => .infinite a
    | .finite _ _, .infinite b => .infinite b
    | _, _ => .nan

/-- The product. Zero times infinity has none. -/
def mul (x y : Binary64) : Binary64 :=
  let negative := x.isNegative != y.isNegative
  match x.toRat?, y.toRat? with
  | some a, some b => nearest negative ⟨(a * b).num.natAbs, (a * b).den⟩
  | _, _ =>
    match x, y with
    | .nan, _ | _, .nan => .nan
    | _, _ => if x.isZero || y.isZero then .nan else .infinite negative

/-- The quotient. Zero by zero and infinity by infinity have none. -/
def div (x y : Binary64) : Binary64 :=
  let negative := x.isNegative != y.isNegative
  match x.toRat?, y.toRat? with
  | some a, some b =>
    if b = 0 then (if a = 0 then .nan else .infinite negative)
    else nearest negative ⟨(a / b).num.natAbs, (a / b).den⟩
  | some _, none => if y = .nan then .nan else ofRank negative 0
  | none, some _ => if x = .nan then .nan else .infinite negative
  | none, none => .nan

/-- The integer that a finite double is, if it is one. -/
def integer? (x : Binary64) : Option Int :=
  x.toRat?.bind fun q => if q.den = 1 then some q.num else none

end Binary64

end FilmQuery.Number
