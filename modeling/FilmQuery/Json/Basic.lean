/-
# JSON values

The values of filter states, evaluation files and messages.  Whole numbers and doubles are kept
apart, as they are written apart, and an object keeps its fields in the order in which they were
set.  `same` is equality of values: a number equals a number of the same value, whichever way it is
written, a truth value counts as one or zero, and the order of fields does not matter.
-/
import FilmQuery.Number.Binary64
import FilmQuery.Record

namespace FilmQuery

open Number (Binary64)

/-- A JSON value. -/
inductive Json where
  | null
  | bool (value : Bool)
  | int (value : Int)
  | real (value : Binary64)
  | str (text : String)
  | arr (items : List Json)
  | obj (fields : List (String × Json))

namespace Json

instance : Inhabited Json := ⟨.null⟩

mutual

/-- Whether two values are written alike, with the fields of objects in the same order. -/
def identical : Json → Json → Bool
  | .null, .null => true
  | .bool x, .bool y => x == y
  | .int m, .int n => m == n
  | .real x, .real y => decide (x = y)
  | .str s, .str t => s == t
  | .arr xs, .arr ys => identicalItems xs ys
  | .obj xs, .obj ys => identicalFields xs ys
  | _, _ => false

/-- Whether two lists are written alike. -/
def identicalItems : List Json → List Json → Bool
  | [], [] => true
  | x :: xs, y :: ys => identical x y && identicalItems xs ys
  | _, _ => false

/-- Whether the fields of two objects are written alike. -/
def identicalFields : List (String × Json) → List (String × Json) → Bool
  | [], [] => true
  | (j, x) :: xs, (k, y) :: ys => j == k && identical x y && identicalFields xs ys
  | _, _ => false

end

mutual

/-- Values are written alike only if they are the same value. -/
theorem identical_iff : (a b : Json) → (identical a b = true ↔ a = b)
  | .null, b | .bool _, b | .int _, b | .real _, b | .str _, b => by
    cases b <;> simp [identical]
  | .arr xs, b => by cases b <;> simp [identical, identicalItems_iff xs]
  | .obj xs, b => by cases b <;> simp [identical, identicalFields_iff xs]

/-- Lists are written alike only if they are the same list. -/
theorem identicalItems_iff : (xs ys : List Json) → (identicalItems xs ys = true ↔ xs = ys)
  | [], ys => by cases ys <;> simp [identicalItems]
  | x :: xs, ys => by
    cases ys <;> simp [identicalItems, identical_iff x, identicalItems_iff xs]

/-- Fields are written alike only if they are the same fields. -/
theorem identicalFields_iff :
    (xs ys : List (String × Json)) → (identicalFields xs ys = true ↔ xs = ys)
  | [], ys => by cases ys <;> simp [identicalFields]
  | (_, x) :: xs, ys => by
    cases ys <;> simp [identicalFields, identical_iff x, identicalFields_iff xs, and_assoc,
      Prod.ext_iff]

end

instance : DecidableEq Json := fun a b => decidable_of_iff _ (identical_iff a b)

/-- The fields of an object. -/
abbrev Fields := Record Json

/-- The value of a field of an object; `null` when it is missing or the value is no object. -/
def field (key : String) : Json → Json
  | .obj fields => (Record.get? fields key).getD .null
  | _ => .null

/-- Whether the value says yes: everything does except `null`, false, zero and what is empty. -/
def truthy : Json → Bool
  | .null => false
  | .bool value => value
  | .int value => value != 0
  | .real value => !value.isZero
  | .str text => text != ""
  | .arr items => !items.isEmpty
  | .obj fields => !fields.isEmpty

/-- The whole number that a value counts as, for truth values and whole numbers. -/
def wholeNumber? : Json → Option Int
  | .bool value => some (if value then 1 else 0)
  | .int value => some value
  | _ => none

/-- Equality of two values without parts. -/
def sameLeaf (a b : Json) : Bool :=
  match a, b with
  | .null, .null => true
  | .str s, .str t => s == t
  | .real x, .real y => x.same y
  | .real x, other | other, .real x =>
    match other.wholeNumber? with
    | some n => x.toRat? == some (n : Rat)
    | none => false
  | a, b =>
    match a.wholeNumber?, b.wholeNumber? with
    | some m, some n => m == n
    | _, _ => false

mutual

/-- Equality of values. -/
def same : Json → Json → Bool
  | .arr xs, .arr ys => sameItems xs ys
  | .obj xs, .obj ys => xs.length == ys.length && sameFields xs ys
  | a, b => sameLeaf a b

/-- Equality of lists, place by place. -/
def sameItems : List Json → List Json → Bool
  | [], [] => true
  | x :: xs, y :: ys => same x y && sameItems xs ys
  | _, _ => false

/-- Whether every field of the first object is in the second with an equal value. -/
def sameFields : List (String × Json) → List (String × Json) → Bool
  | [], _ => true
  | (key, x) :: rest, ys =>
    (match ys.lookup key with
      | some y => same x y
      | none => false) && sameFields rest ys

end

/-- Whether a value has no parts, so that it can be counted. -/
def isLeaf : Json → Bool
  | .arr _ | .obj _ => false
  | _ => true

end Json

end FilmQuery
