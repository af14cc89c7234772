/-
# Reading JSON

Reads one value and refuses anything after it.  Besides the numbers of the standard the names of
the three doubles without digits are read.  A field that is written twice keeps its first place and
takes its last value.

Every bracket that is open takes some room, and how many there is room for depends on who reads, so
it is a parameter.  Texts here are sequences of characters.  An escape can also write one half of a
pair without the other one; nothing is said of what such a text is read as, and the reader says so
(`JsonError.halfCharacter`).
-/
import FilmQuery.Json.Basic
import FilmQuery.Number.Numeral
import FilmQuery.Text.Hex

namespace FilmQuery

open Number (Binary64 Numeral.digitsValue Numeral.longestInteger)
open Text (hexValue?)

/-- Why a text is not read as JSON. -/
inductive JsonError where
  /-- The text is not of the form of JSON. -/
  | malformed
  /-- A whole number has more digits than are read. -/
  | longInteger (digits : Nat)
  /-- Lists and objects stand deeper inside one another than there is room for. -/
  | tooDeep
  /-- An escape writes half a character without its other half. What that is read as is no sequence
  of characters, and nothing is said of it. -/
  | halfCharacter
  deriving DecidableEq

namespace Json

/-- The rest of a text after the blanks of JSON. -/
def skipBlanks : List Char → List Char
  | [] => []
  | c :: rest =>
    if c == ' ' || c == '\t' || c == '\n' || c == '\r' then skipBlanks rest else c :: rest

/-- The value of four hexadecimal digits. -/
def unit? (a b c d : Char) : Option Nat := do
  let a ← hexValue? a
  let b ← hexValue? b
  let c ← hexValue? c
  let d ← hexValue? d
  pure (((a * 16 + b) * 16 + c) * 16 + d)

/-- The character that a backslash before `c` stands for. -/
def escaped? : Char → Option Char
  | '"' => some '"'
  | '\\' => some '\\'
  | '/' => some '/'
  | 'b' => some '\x08'
  | 'f' => some '\x0c'
  | 'n' => some '\n'
  | 'r' => some '\r'
  | 't' => some '\t'
  | _ => none

/-- Reads a string after its opening quote: the codes of its characters, and what follows the
closing quote. -/
def stringCodes? : List Char → Option (List Nat × List Char)
  | [] => none
  | '"' :: rest => some ([], rest)
  | '\\' :: 'u' :: a :: b :: c :: d :: rest =>
    match unit? a b c d, stringCodes? rest with
    | some unit, some (codes, after) => some (unit :: codes, after)
    | _, _ => none
  | '\\' :: e :: rest =>
    match escaped? e, stringCodes? rest with
    | some c, some (codes, after) => some (c.toNat :: codes, after)
    | _, _ => none
  | c :: rest =>
    if c.toNat < 0x20 then none
    else (stringCodes? rest).map fun (codes, after) => (c.toNat :: codes, after)

/-- The characters of a list of codes, in which two halves of a pair make one character; none if
there is a half without its other half. -/
def joinUnits? : List Nat → Option (List Char)
  | [] => some []
  | [code] => if 0xD800 ≤ code ∧ code < 0xE000 then none else some [Char.ofNat code]
  | high :: low :: rest =>
    if 0xD800 ≤ high ∧ high < 0xDC00 ∧ 0xDC00 ≤ low ∧ low < 0xE000 then
      (joinUnits? rest).map
        (Char.ofNat (0x10000 + (high - 0xD800) * 0x400 + (low - 0xDC00)) :: ·)
    else if 0xD800 ≤ high ∧ high < 0xE000 then none
    else (joinUnits? (low :: rest)).map (Char.ofNat high :: ·)

/-- Reads a string after its opening quote. -/
def readString (text : List Char) : Except JsonError (String × List Char) :=
  match stringCodes? text with
  | none => .error .malformed
  | some (codes, after) =>
    match joinUnits? codes with
    | some chars => .ok (String.ofList chars, after)
    | none => .error .halfCharacter

/-- Splits the digits off a text. -/
def spanDigits (text : List Char) : List Char × List Char :=
  (text.takeWhile Char.isDigit, text.dropWhile Char.isDigit)

/-- Splits the whole part of a number off a text: one zero, or digits of which the first is not
zero. -/
def spanWhole : List Char → List Char × List Char
  | '0' :: rest => (['0'], rest)
  | text => spanDigits text

/-- Splits a fraction off a text: the digits after a point, none when there is no fraction. -/
def spanFraction (text : List Char) : List Char × List Char :=
  match text with
  | '.' :: rest =>
    match spanDigits rest with
    | ([], _) => ([], text)
    | split => split
  | _ => ([], text)

/-- Splits an exponent off a text: its value, if there is one. -/
def spanExponent (text : List Char) : Option Int × List Char :=
  match text with
  | e :: rest =>
    if e == 'e' || e == 'E' then
      let (negative, digits) := Number.Numeral.sign rest
      match spanDigits digits with
      | ([], _) => (none, text)
      | (digits, after) =>
        let value : Int := Numeral.digitsValue digits
        (some (if negative then -value else value), after)
    else (none, text)
  | [] => (none, text)

/-- Reads a number after its sign. A number with a fraction or an exponent is a double; any other
must not be too long. -/
def readNumber (negative : Bool) (text : List Char) : Except JsonError (Json × List Char) :=
  let (whole, afterWhole) := spanWhole text
  if whole.isEmpty then .error .malformed
  else
    let (places, afterPlaces) := spanFraction afterWhole
    let (exponent, after) := spanExponent afterPlaces
    if places.isEmpty && exponent.isNone then
      if Numeral.longestInteger < whole.length then .error (.longInteger whole.length)
      else
        let value : Int := Numeral.digitsValue whole
        .ok (.int (if negative then -value else value), after)
    else
      let coefficient := Numeral.digitsValue (whole ++ places)
      .ok (.real (.ofDecimal negative coefficient (exponent.getD 0 - (places.length : Int))), after)

/-- Takes a fixed word off a text. -/
def word? (word : List Char) (text : List Char) : Option (List Char) :=
  if word.isPrefixOf text then some (text.drop word.length) else none

/-- Reads a value that is one word or a number. -/
def readLeaf (text : List Char) : Except JsonError (Json × List Char) :=
  match word? "null".toList text with
  | some rest => .ok (.null, rest)
  | none =>
  match word? "true".toList text with
  | some rest => .ok (.bool true, rest)
  | none =>
  match word? "false".toList text with
  | some rest => .ok (.bool false, rest)
  | none =>
  match word? "NaN".toList text with
  | some rest => .ok (.real .nan, rest)
  | none =>
  match word? "Infinity".toList text with
  | some rest => .ok (.real (.infinite false), rest)
  | none =>
  match word? "-Infinity".toList text with
  | some rest => .ok (.real (.infinite true), rest)
  | none =>
  match text with
  | '-' :: rest => readNumber true rest
  | _ => readNumber false text

mutual

/-- Reads a value at the beginning of a text, with room for `deepest` open brackets. Of two calls
one at least takes a character, so twice the length of the text is fuel enough. -/
def readValue (deepest : Nat) : (fuel : Nat) → List Char → Except JsonError (Json × List Char)
  | 0, _ => .error .malformed
  | fuel + 1, text =>
    match text with
    | '"' :: rest =>
      match readString rest with
      | .ok (s, after) => .ok (.str s, after)
      | .error e => .error e
    | '[' :: rest =>
      if deepest = 0 then .error .tooDeep
      else
        match skipBlanks rest with
        | ']' :: after => .ok (.arr [], after)
        | first =>
          match readItems (deepest - 1) fuel first with
          | .ok (items, after) => .ok (.arr items, after)
          | .error e => .error e
    | '\x7b' :: rest =>
      if deepest = 0 then .error .tooDeep
      else
        match skipBlanks rest with
        | '\x7d' :: after => .ok (.obj [], after)
        | first =>
          match readFields (deepest - 1) fuel [] first with
          | .ok (fields, after) => .ok (.obj fields, after)
          | .error e => .error e
    | other => readLeaf other

/-- Reads the items of a list up to its closing bracket. -/
def readItems (deepest : Nat) : (fuel : Nat) → List Char → Except JsonError (List Json × List Char)
  | 0, _ => .error .malformed
  | fuel + 1, text =>
    match readValue deepest fuel text with
    | .error e => .error e
    | .ok (item, after) =>
      match skipBlanks after with
      | ']' :: rest => .ok ([item], rest)
      | ',' :: rest =>
        match readItems deepest fuel (skipBlanks rest) with
        | .ok (items, rest) => .ok (item :: items, rest)
        | .error e => .error e
      | _ => .error .malformed

/-- Reads the fields of an object up to its closing bracket, and adds them to those before. -/
def readFields (deepest : Nat) :
    (fuel : Nat) → Fields → List Char → Except JsonError (Fields × List Char)
  | 0, _, _ => .error .malformed
  | fuel + 1, before, text =>
    match text with
    | '"' :: afterQuote =>
      match readString afterQuote with
      | .error e => .error e
      | .ok (key, afterKey) =>
        match skipBlanks afterKey with
        | ':' :: afterColon =>
          match readValue deepest fuel (skipBlanks afterColon) with
          | .error e => .error e
          | .ok (value, after) =>
            let fields := Record.set key value before
            match skipBlanks after with
            | '\x7d' :: rest => .ok (fields, rest)
            | ',' :: rest => readFields deepest fuel fields (skipBlanks rest)
            | _ => .error .malformed
        | _ => .error .malformed
    | _ => .error .malformed

end

/-- Reads a text that is one value, with blanks around it, where there is room for `deepest` open
brackets. -/
def read (deepest : Nat) (text : List Char) : Except JsonError Json :=
  match readValue deepest (2 * text.length + 1) (skipBlanks text) with
  | .error e => .error e
  | .ok (value, after) => if (skipBlanks after).isEmpty then .ok value else .error .malformed

end Json

end FilmQuery
