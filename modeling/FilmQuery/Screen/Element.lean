/-
# Elements of a page

What a page shows, from top to bottom, without how it looks.  A button has a label to read and may
have a key by which it is known even when other buttons read the same.
-/
import FilmQuery.Fragment.Basic

namespace FilmQuery

/-- What a button is for, where its label does not tell. -/
inductive ButtonKey where
  | apply
  | clear
  | sample (index : Nat)
  | chip (id : FragmentId)
  deriving DecidableEq

/-- The text of a key. -/
def ButtonKey.text : ButtonKey → String
  | .apply => "apply-filters"
  | .clear => "clear-all-chips"
  | .sample index => "suggestion-" ++ String.ofList (Number.decimalDigits index)
  | .chip id => "remove-chip-" ++ id.text

/-- A button. -/
structure Button where
  label : String
  help : String := ""
  key : Option ButtonKey := none
  deriving DecidableEq

/-- An element of a page. -/
inductive Element where
  | title (text : String)
  | header (text : String)
  | subheader (text : String)
  | caption (text : String)
  | info (text : String)
  | markdown (text : String)
  | code (text : String)
  | textInput (label value placeholder : String)
  | radio (label : String) (options : List String) (value : String)
  | checkbox (label : String) (value : Bool)
  | button (button : Button)
  | metric (label value : String)
  | json (value : Json)
  | table (columns : List String) (rows : List (List Json))
  | chart (title axis : String) (bars : List (String × Nat))
  | failure (error : String)
  /-- Anything can stand here: what does is not told. -/
  | untold
  /-- Columns side by side, each with its elements. -/
  | columns (contents : List (List Element))
  | panel (contents : List Element)
  | expander (label : String) (contents : List Element)

namespace Element

mutual

/-- The buttons of an element, columns one after another. -/
def buttons : Element → List Button
  | .button b => [b]
  | .columns contents => columnButtons contents
  | .panel contents => listButtons contents
  | .expander _ contents => listButtons contents
  | _ => []

/-- The buttons of some elements, from top to bottom. -/
def listButtons : List Element → List Button
  | [] => []
  | e :: rest => buttons e ++ listButtons rest

/-- The buttons of some columns, one column after another. -/
def columnButtons : List (List Element) → List Button
  | [] => []
  | c :: rest => listButtons c ++ columnButtons rest

end

end Element

/-- What is on the screen: the page and the bar beside it. -/
structure Screen where
  main : List Element := []
  sidebar : List Element := []

/-- The buttons on the screen, those of the page first. -/
def Screen.buttons (screen : Screen) : List Button :=
  Element.listButtons screen.main ++ Element.listButtons screen.sidebar

end FilmQuery
