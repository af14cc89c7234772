/-
# Reading numerals

A numeral may be typed with the digits of any script, with blanks around it, with a sign, and with
single underscores between digits.  `integer?` reads whole numbers and `real?` also fractions,
exponents and the names of infinity; both refuse anything else.
-/
import FilmQuery.Number.Binary64
import FilmQuery.Text.Blank
import FilmQuery.Text.Digit

namespace FilmQuery.Number.Numeral

open FilmQuery.Text

/-- The plain form of a character of a numeral: digits of every script become the Latin digits and
the blanks beyond the Latin ones become spaces. Other foreign characters have no place in a
numeral and become a question mark. -/
def plain (c : Char) : Char :=
  if c.toNat < 127 then c
  else if isBlank c then ' '
  else
    match digitValue? c with
    | some value => Char.ofNat (48 + value)
    | none => '?'

/-- The blanks that may surround a numeral in its plain form. -/
def isMargin (c : Char) : Bool := c == ' ' || (9 ≤ c.toNat && c.toNat ≤ 13)

/-- The plain form of a numeral without the blanks around it. -/
def body (text : List Char) : List Char :=
  (((text.map plain).dropWhile isMargin).reverse.dropWhile isMargin).reverse

/-- Takes the sign off a numeral: whether it is negative, and the rest. -/
def sign : List Char → Bool × List Char
  | '-' :: rest => (true, rest)
  | '+' :: rest => (false, rest)
  | rest => (false, rest)

/-- The text without its underscores, each of which has to stand between two digits; `afterDigit`
says whether a digit comes just before the text. -/
def withoutUnderscores? (afterDigit : Bool) : List Char → Option (List Char)
  | [] => some []
  | '_' :: rest =>
    match rest with
    | [] => none
    | c :: _ => if afterDigit && c.isDigit then withoutUnderscores? false rest else none
  | c :: rest => (withoutUnderscores? c.isDigit rest).map (c :: ·)

/-- The number that a run of Latin digits writes. -/
def digitsValue (digits : List Char) : Nat :=
  digits.foldl (fun value c => 10 * value + (c.toNat - 48)) 0

/-- A number with more digits than this is not read as an integer. -/
def longestInteger : Nat := 4300

/-- The whole number that a text writes. -/
def integer? (text : List Char) : Option Int :=
  let (negative, rest) := sign (body text)
  match withoutUnderscores? false rest with
  | none => none
  | some digits =>
    if digits.isEmpty || !digits.all Char.isDigit || longestInteger < digits.length then none
    else
      let value : Int := digitsValue digits
      some (if negative then -value else value)

/-- The exponent at the end of a numeral: nothing, or an `e`, a sign and digits. -/
def exponent? : List Char → Option Int
  | [] => some 0
  | e :: rest =>
    if e.toLower != 'e' then none
    else
      let (negative, digits) := sign rest
      if digits.isEmpty || !digits.all Char.isDigit then none
      else
        let value : Int := digitsValue digits
        some (if negative then -value else value)

/-- The number written by digits, a point, digits and an exponent; one of the two runs of digits
may be missing, and with the second also the point. -/
def magnitude? (text : List Char) : Option (Nat × Int) :=
  let whole := text.takeWhile Char.isDigit
  let rest := text.dropWhile Char.isDigit
  let (places, tail) :=
    match rest with
    | '.' :: more => (more.takeWhile Char.isDigit, more.dropWhile Char.isDigit)
    | other => ([], other)
  if whole.isEmpty && places.isEmpty then none
  else
    (exponent? tail).map fun e => (digitsValue (whole ++ places), e - (places.length : Int))

/-- The double that a text writes. -/
def real? (text : List Char) : Option Binary64 :=
  let (negative, rest) := sign (body text)
  let word := String.ofList (rest.map Char.toLower)
  if word = "inf" ∨ word = "infinity" then some (.infinite negative)
  else if word = "nan" then some .nan
  else
    match withoutUnderscores? false rest with
    | none => none
    | some digits =>
      (magnitude? digits).map fun (coefficient, e) => .ofDecimal negative coefficient e

end FilmQuery.Number.Numeral
