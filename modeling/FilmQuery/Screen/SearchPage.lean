/-
# The search page

The page has a field for the query, the fragments found in it as buttons that remove them, and the
filters they are applied to.  It keeps what its widgets show beside the session; a run of the page
brings the two together, and reads the query if the field shows another one than the session has.
-/
import FilmQuery.Listing
import FilmQuery.Screen.Element
import FilmQuery.Session
import FilmQuery.Text.Lines

namespace FilmQuery

/-- What the search page works on: the session, what its widgets show, and the patch applied last.
A widget without a value has not been shown since the page was opened. -/
structure SearchPage where
  session : Session
  query : Option String := none
  medium : Option Medium := none
  debug : Bool := false
  lastPatch : Option Patch := none

namespace SearchPage

/-- The medium that the session searches for; anything but films shows as shows. -/
def sessionMedium (session : Session) : Medium :=
  if session.contentType = .text Medium.movie.name then .movie else .tv

/-- What the query field shows. -/
def shownQuery (page : SearchPage) : String := page.query.getD ""

/-- What the choice of the medium shows: the choice made on it, or else what the session searches
for. -/
def shownMedium (page : SearchPage) : Medium :=
  page.medium.getD (sessionMedium page.session)

/-- Brings session and widgets together: the session takes the medium that is shown, and reads the
query that is shown if it has another one. -/
def synchronize (page : SearchPage) : SearchPage :=
  let query := page.shownQuery
  let medium := page.shownMedium
  let session := { page.session with contentType := .text medium.name }
  let session :=
    if Json.same session.query (.str query) then session else session.parse (.str query)
  { page with session, query := some query, medium := some medium }

/-- The button that removes a fragment. Its help shows the phrase, on which lines of blanks are
empty. -/
def chipButton (chip : Fragment) : Button :=
  let phrase := "from \"" ++ Text.trimString chip.source ++ "\""
  { label := "✕ " ++ chip.label
    help := String.ofList (Text.emptyBlankLines phrase.toList)
    key := some (.chip chip.id) }

/-- Deals items out to columns, one after the other. -/
def deal {α : Type} (columns : Nat) (items : List α) : List (List α) :=
  (List.range columns).map fun column =>
    (items.zipIdx.filter fun (_, index) => index % columns = column).map Prod.fst

/-- The number of columns for some fragments: one for each, but at most four. -/
def columnCount (chips : List Fragment) : Nat := min chips.length 4

/-- The buttons of some fragments in a number of columns. -/
def chipColumns (columns : Nat) (chips : List Fragment) : Element :=
  .columns ((deal columns chips).map (·.map fun chip => .button (chipButton chip)))

/-- What stands above the fragments found. -/
def chipHeading : Element := .markdown "**✨ Detected Filters**"

/-- The buttons to apply the fragments and to drop them. -/
def chipActions : Element :=
  .columns
    [[.button { label := "Apply", key := some .apply }],
      [.button { label := "Clear", key := some .clear }], []]

/-- The fragments found, with what can be done with them. -/
def chipPanel (chips : List Fragment) : Element :=
  .panel [chipHeading, chipColumns (columnCount chips) chips, chipActions]

/-- The queries offered while the field is empty. -/
def offeredQueries : List String := Catalog.sampleQueries.take 3

/-- The buttons for the queries offered. -/
def sampleButtons : List Element :=
  [.caption "Try:",
    .columns (offeredQueries.zipIdx.map fun (query, index) =>
      [.button { label := "\"" ++ query ++ "\"", key := some (.sample index) }])]

/-- What the page shows about its inner workings when asked to. -/
def debugPanels (page : SearchPage) : List Element :=
  if page.debug then
    [.markdown "---", .subheader "🔍 Compiler output (debug)",
      if page.session.chips.isEmpty then .info "No fragments for the current text."
      else
        .table ["id", "kind", "label", "source"]
          ((fragmentRows page.session.chips).map (·.map Prod.snd))] ++
      match page.lastPatch with
      | none => []
      | some patch =>
        match patch.text with
        | .ok text => [.expander "Last applied patch" [.code text]]
        | .error _ => [.expander "Last applied patch" [], .failure "TypeError"]
  else []

/-- The top of the page, down to the query field. -/
def top (page : SearchPage) : List Element :=
  [.title "🎬 Smart Search",
    .markdown "Describe what you want to watch and the detected filters will show up below.",
    .textInput "Search" page.shownQuery
      "Search like: \"action movies from 2020 on Netflix rated above 7\""]

/-- The page itself, after session and widgets were brought together. -/
def main (page : SearchPage) : List Element :=
  let query := page.shownQuery
  let chips := page.session.chips
  page.top ++
    (if query = "" then sampleButtons else []) ++
    (if !chips.isEmpty then [chipPanel chips]
     else if query ≠ "" then [.info "No filters detected in this search."]
     else []) ++
    [.markdown "---", .subheader "🎛️ Current filters",
      if page.session.filters.isEmpty then .info "No filters applied yet."
      else .json (.obj page.session.filters.toFields)] ++
    page.debugPanels

/-- What can be typed, as the bar beside the page tells it. -/
def hints : String :=
  "**You can type things like:**\n" ++
    "- *\"action movies from 2020 on Netflix rated above 7\"*\n" ++
    "- *\"comedy series since 2010 no horror\"*\n" ++
    "- *\"films rated between 6 and 8 in Japan\"*"

/-- The label of the button that empties the filters. -/
def resetLabel : String := "🔄 Reset filters"

/-- The bar beside the page. -/
def sidebar (page : SearchPage) : List Element :=
  [.header "⚙️ Settings",
    .radio "Searching" [Medium.movie.label, Medium.tv.label] page.shownMedium.label,
    .checkbox "Show debug panels" page.debug,
    .markdown hints,
    .button { label := resetLabel }]

/-- What a run of the page shows, once session and widgets were brought together. -/
def screen (page : SearchPage) : Screen := ⟨page.main, page.sidebar⟩

/-- Empties the filters and forgets the patch applied last. -/
def reset (page : SearchPage) : SearchPage :=
  { page with session := page.session.reset, lastPatch := none }

/-- Shows one of the queries offered in the field. -/
def useSample (page : SearchPage) (index : Nat) : SearchPage :=
  { page with query := (offeredQueries[index]?).or page.query }

/-- Applies the fragments to the filters and shows the medium that is searched for then. -/
def apply (page : SearchPage) : SearchPage :=
  match page.session.apply with
  | .ok (patch, session) =>
    { page with session, lastPatch := some patch, medium := some (sessionMedium session) }
  | .error _ => page

/-- Empties the field and drops the fragments. -/
def clear (page : SearchPage) : SearchPage :=
  { page with session := page.session.clear, query := some "" }

/-- Removes a fragment. -/
def removeChip (page : SearchPage) (id : FragmentId) : SearchPage :=
  { page with session := page.session.remove id }

/-- The page after its widgets were off the screen: they forget what they showed. -/
def hidden (page : SearchPage) : SearchPage :=
  { page with query := none, medium := none, debug := false }

end SearchPage

end FilmQuery
