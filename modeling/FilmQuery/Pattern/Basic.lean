/-
# Patterns

The shapes that a phrase can have, as a data type.  A pattern is tried at a place of a text and
gives every way in which it can be met there, the preferred way first: an earlier alternative
before a later one, a longer repetition before a shorter one, unless it is a reluctant one.  What a
group has met is remembered in the order in which the groups were completed.

There can be very many ways, of which one is wanted; `Pattern.Search` finds it without listing the
others.
-/
import FilmQuery.Text.Blank
import FilmQuery.Text.Digit
import FilmQuery.Text.LetterCase
import FilmQuery.Text.Word

namespace FilmQuery

open Text

/-- A named class of characters. -/
inductive CharClass where
  | digit
  | blank
  | visible
  | word
  deriving DecidableEq, Repr

/-- Whether a character is in the class. -/
def CharClass.has : CharClass → Char → Bool
  | .digit, c => isDigit c
  | .blank, c => isBlank c
  | .visible, c => !isBlank c
  | .word, c => isWord c

/-- What a set of characters is made of: single characters and whole classes. -/
inductive Member where
  | char (c : Char)
  | ofClass (k : CharClass)
  deriving DecidableEq, Repr

/-- A pattern. -/
inductive Pattern where
  /-- Takes nothing. -/
  | nothing
  /-- Takes one given character. -/
  | char (c : Char)
  /-- Takes one character of a set. -/
  | oneOf (members : List Member)
  /-- Takes any character but a newline. -/
  | any
  /-- Takes nothing, between a word character and something that is none. -/
  | boundary
  /-- Takes nothing, at the beginning of the text. -/
  | atStart
  /-- Takes nothing, at the end of the text or before a newline that ends it. -/
  | atEnd
  /-- One pattern after the other. -/
  | seq (first second : Pattern)
  /-- The first pattern or else the second. -/
  | alt (first second : Pattern)
  /-- A pattern whose text is remembered under a number. -/
  | group (index : Nat) (body : Pattern)
  /-- Takes nothing, where the pattern cannot be met. -/
  | absent (body : Pattern)
  /-- The pattern `least` times and then further times, preferring more if eager: as often as can
  be, or until there are `most` times. -/
  | repeated (least : Nat) (most : Option Nat) (eager : Bool) (body : Pattern)
  deriving DecidableEq, Repr

namespace Pattern

/-- The number of groups of a pattern, those included that no text can take part in. -/
def groupCount : Pattern → Nat
  | .seq a b | .alt a b => max (groupCount a) (groupCount b)
  | .group index body => max index (groupCount body)
  | .absent body | .repeated _ _ _ body => groupCount body
  | _ => 0

end Pattern

/-- What a numbered group has met: so many of the characters that were to come when it opened. -/
structure Capture where
  index : Nat
  opened : List Char
  length : Nat
  deriving DecidableEq, Repr

/-- The text that the group has met. -/
def Capture.text (capture : Capture) : List Char := capture.opened.take capture.length

/-- A place in a text, reached by a pattern: what comes just before, how many characters have gone
by, what is still to come, and what groups have met on the way, the last one first. -/
structure Place where
  previous : Option Char
  position : Nat
  rest : List Char
  captures : List Capture
  deriving DecidableEq, Repr

namespace Place

/-- Whether a word begins or ends here. -/
def isBoundary (p : Place) : Bool := p.previous.any isWord != p.rest.head?.any isWord

/-- The place behind the next character, if there is one and it passes the test. -/
def take (test : Char → Bool) (p : Place) : List Place :=
  match p.rest with
  | c :: rest => if test c then [⟨some c, p.position + 1, rest, p.captures⟩] else []
  | [] => []

/-- Remembers for a group the text between an earlier place and this one. -/
def remember (index : Nat) (opened closed : Place) : Place :=
  { closed with
    captures := ⟨index, opened.rest, closed.position - opened.position⟩ :: closed.captures }

end Place

namespace Pattern

/-- Whether a character is in a set. Where case is ignored, members of the first plane count as in
`sameLetter`; those beyond it stand for themselves and have to be small letters. -/
def isIn (blind : Bool) (members : List Member) (d : Char) : Bool :=
  members.any fun
    | .char c =>
      if !blind then c == d else if c.toNat < 0x10000 then sameLetter c d else lower d == c
    | .ofClass k => k.has d

/-- How many further repetitions are tried at a place. Each takes a character, but for the last one,
so without a bound there are never more than the characters to come and one. -/
def allowance (least : Nat) (most : Option Nat) (p : Place) : Nat :=
  match most with
  | some bound => bound - least
  | none => p.rest.length + 1

/-- Takes a step a number of times. -/
def exactly (step : Place → List Place) : Nat → Place → List Place
  | 0, p => [p]
  | n + 1, p => (step p).flatMap (exactly step n)

/-- Takes a step up to a number of times. A step that takes no character is the last one. -/
def further (step : Place → List Place) (eager : Bool) : Nat → Place → List Place
  | 0, p => [p]
  | limit + 1, p =>
    let longer := (step p).flatMap fun q =>
      if p.position < q.position then further step eager limit q else [q]
    if eager then longer ++ [p] else p :: longer

/-- Every place that a pattern can lead to from a place, the preferred one first. Letter case is
ignored if `blind`. -/
def ways (blind : Bool) : Pattern → Place → List Place
  | .nothing, p => [p]
  | .char c, p => p.take fun d => if blind then sameLetter c d else c == d
  | .oneOf members, p => p.take (isIn blind members)
  | .any, p => p.take (· != '\n')
  | .boundary, p => if p.isBoundary then [p] else []
  | .atStart, p => if p.position = 0 then [p] else []
  | .atEnd, p => if p.rest = [] ∨ p.rest = ['\n'] then [p] else []
  | .seq a b, p => (ways blind a p).flatMap (ways blind b)
  | .alt a b, p => ways blind a p ++ ways blind b p
  | .group index body, p => (ways blind body p).map (Place.remember index p)
  | .absent body, p => if (ways blind body p).isEmpty then [p] else []
  | .repeated least most eager body, p =>
    (exactly (ways blind body) least p).flatMap fun q =>
      further (ways blind body) eager (allowance least most q) q

end Pattern

end FilmQuery
