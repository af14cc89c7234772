/-
# Records

Entries by name, in the order in which the names were first set.
-/

namespace FilmQuery

/-- Entries by name. -/
abbrev Record (α : Type) := List (String × α)

namespace Record

variable {α : Type}

/-- Sets an entry: a name that is there keeps its place, a new one goes to the end. -/
def set (key : String) (value : α) : Record α → Record α
  | [] => [(key, value)]
  | (k, v) :: rest => if k = key then (key, value) :: rest else (k, v) :: set key value rest

/-- The entry of a name. -/
def get? (record : Record α) (key : String) : Option α := record.lookup key

end Record

end FilmQuery
