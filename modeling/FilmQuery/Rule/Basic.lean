/-
# Rules

A rule pairs the shape of a phrase with the kind of fragment it makes and with a way to its value:
an extractor, or else one fixed value.  Judging an occurrence has three outcomes: a fragment, a
silent rejection, or a failure.
-/
import FilmQuery.Fragment.Label
import FilmQuery.Pattern.Order
import FilmQuery.Pattern.Reader
import FilmQuery.Rule.Extractor

namespace FilmQuery

/-- The shape of a phrase: a way to find it in a text, together with the text that writes the shape.
How it is found is left open, but for the order of what is found. -/
structure PhraseShape where
  text : String
  /-- The occurrences in a text. -/
  find : List Char → List Occurrence
  /-- Whether letter case is ignored. -/
  blind : Bool := true
  /-- The other switches that the shape was written with, each a bit of a number. What they do to
  the search is a matter of `find`. -/
  switches : Nat := 0
  find_inOrder : ∀ chars, InOrder chars (find chars)

/-- The shape of a pattern. -/
def PhraseShape.ofPattern (text : String) (pattern : Pattern) (blind : Bool) : PhraseShape :=
  { text, blind, find := pattern.occurrences blind
    find_inOrder := pattern.occurrences_inOrder blind }

/-- The shape that a text writes. -/
def PhraseShape.read? (text : String) (blind : Bool) : Option PhraseShape :=
  (Pattern.read? text.toList).map fun pattern => .ofPattern text pattern blind

/-- One recognisable phrase. -/
structure Rule where
  shape : PhraseShape
  kind : Kind
  extractor : Option Extractor := none
  /-- The value of every fragment of a rule without an extractor. -/
  fixed : Value := .nothing

/-- What becomes of an occurrence. -/
inductive Verdict where
  | accepted (value : Value) (label : String)
  | rejected
  | failed (fault : Fault)
  deriving DecidableEq

namespace Rule

/-- The value that an occurrence carries. -/
def extract (rule : Rule) (m : Occurrence) : Except Fault Value :=
  match rule.extractor with
  | some extractor => extractor m
  | none => .ok rule.fixed

/-- What becomes of an occurrence: it is accepted if it has a value and a label. -/
def judge (rule : Rule) (m : Occurrence) : Verdict :=
  match rule.extract m with
  | .error fault => .failed fault
  | .ok .nothing => .rejected
  | .ok value =>
    match label rule.kind value m with
    | .ok text => .accepted value text
    | .error fault => .failed fault

/-- Whether the rule can ever have a value. -/
def hasValue (rule : Rule) : Bool := rule.extractor.isSome || rule.fixed != .nothing

/-- What makes two rules the same rule: kind, pattern, whether case matters, and the other
switches. -/
abbrev Key := Kind × String × Bool × Nat

/-- The key of a rule. -/
def key (rule : Rule) : Key :=
  (rule.kind, rule.shape.text, rule.shape.blind, rule.shape.switches)

/-- The fixed value as it is listed; a rule with an extractor may have one too, to no effect. -/
def listedValue (rule : Rule) : String :=
  if rule.fixed = .nothing then "" else rule.fixed.display

end Rule

end FilmQuery
