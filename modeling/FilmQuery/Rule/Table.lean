/-
# Tables of rules

An ordered list of rules in which every rule can have a value and no rule is there twice.  Reading
a list of rules from the first on, the first rule at fault settles what is wrong with it.
-/
import FilmQuery.Rule.Basic

namespace FilmQuery

/-- What is wrong with a list of rules. -/
inductive TableError where
  /-- A rule can never have a value. -/
  | noValue (index : Nat) (kind : Kind)
  /-- A rule repeats an earlier one. -/
  | duplicate (index earlier : Nat) (kind : Kind) (pattern : String)
  deriving DecidableEq

namespace TableError

/-- A number of a rule as it is shown. -/
def indexText (index : Nat) : String := "#" ++ String.ofList (Number.decimalDigits index)

/-- The message of an error. -/
def message : TableError → String
  | .noValue index kind =>
    "Rule " ++ indexText index ++ " (" ++ kind.name ++
      ") has neither an extractor nor a static value."
  | .duplicate index earlier kind pattern =>
    "Rule " ++ indexText index ++ " duplicates rule " ++ indexText earlier ++ ": " ++
      kind.name ++ " /" ++ pattern ++ "/"

end TableError

/-- The first fault of a list of rules that follows `index` others; `seen` has the keys of those
with their places. -/
def faultAfter? (seen : List (Rule.Key × Nat)) (index : Nat) :
    List Rule → Option TableError
  | [] => none
  | rule :: rest =>
    if !rule.hasValue then some (.noValue index rule.kind)
    else
      match seen.lookup rule.key with
      | some earlier => some (.duplicate index earlier rule.kind rule.shape.text)
      | none => faultAfter? ((rule.key, index) :: seen) (index + 1) rest

/-- The first fault of a list of rules. -/
def fault? (rules : List Rule) : Option TableError := faultAfter? [] 0 rules

/-- A list of rules without a fault. -/
structure Table where
  rules : List Rule
  faultless : fault? rules = none

namespace Table

/-- The table of a list of rules. -/
def ofRules (rules : List Rule) : Except TableError Table :=
  match h : fault? rules with
  | none => .ok ⟨rules, h⟩
  | some e => .error e

/-- The number of rules. -/
def size (table : Table) : Nat := table.rules.length

/-- The rule at a place, with its number; negative places count from the end. -/
def get? (table : Table) (place : Int) : Option (Nat × Rule) :=
  let index := if place < 0 then place + table.size else place
  if index < 0 then none
  else table.rules[index.toNat]?.map fun rule => (index.toNat, rule)

/-- A rule as a row of a listing. -/
def row (index : Nat) (rule : Rule) : Json.Fields :=
  [("order", .int index), ("kind", .str rule.kind.name), ("pattern", .str rule.shape.text),
    ("value", .str rule.listedValue)]

/-- The rules as rows of a listing, in their order. -/
def describe (table : Table) : List Json.Fields :=
  table.rules.zipIdx.map fun (rule, index) => row index rule

end Table

end FilmQuery
