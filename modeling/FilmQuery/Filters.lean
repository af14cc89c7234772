/-
# Filters

Filters are settings by name.  A setting is a value, which may come from outside as JSON or from a
fragment, or a list to which values were added.
-/
import FilmQuery.Fragment.Value

namespace FilmQuery

/-- What a filter is set to. -/
inductive Setting where
  | value (v : Value)
  | list (items : List Value)
  deriving DecidableEq

/-- Settings by name. -/
abbrev Filters := Record Setting

/-- Adds the items that equal none that is there. -/
def addNew {α : Type} (same : α → α → Bool) (old new : List α) : List α :=
  new.foldl (fun items x => if items.any (same · x) then items else items ++ [x]) old

namespace Setting

/-- The setting as JSON. -/
def toJson : Setting → Json
  | .value v => v.toJson
  | .list items => .arr (items.map Value.toJson)

/-- The items of a setting that is to become a list: none if it says nothing. -/
def items? : Setting → Option (List Value)
  | .list items => some items
  | .value v => if v.truthy then v.items? else some []

end Setting

namespace Filters

/-- The filters that a JSON object describes. -/
def ofFields (fields : Json.Fields) : Filters :=
  fields.map fun (key, value) => (key, .value (.plain value))

/-- The filters as the fields of a JSON object. -/
def toFields (filters : Filters) : Json.Fields :=
  filters.map fun (key, setting) => (key, setting.toJson)

/-- What a filter is set to; no value if it is not set. -/
def setting (filters : Filters) (key : String) : Setting :=
  (Record.get? filters key).getD (.value .nothing)

end Filters

end FilmQuery
