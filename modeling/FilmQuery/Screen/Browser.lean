/-
# Using the pages

A browser shows one of the two pages at a time, and a runner runs their scripts.  The runner is no
part of this library; what is assumed of it is:

* Every operation of the user stores what the widget then shows, or calls what belongs to the
  button, before the script of the open page is run from its beginning.
* A widget with a key shows what is kept under the key, and the script reads it there.
* A button that the script itself asks for is pressed in one run only.  Where that run asks for a
  rerun, the script starts again, and the screen is what the new run shows.
* What widgets keep under their keys is dropped when a run does not show them; all else is kept.
* A reading that is cached is made once: it is given again whenever it is asked for, unless it
  failed.
-/
import FilmQuery.Screen.SearchPage
import FilmQuery.Screen.TablePage

namespace FilmQuery

/-- The two pages. -/
inductive PageName where
  | search
  | table
  deriving DecidableEq, Repr

/-- A browser: the page that is open and what it shows, the state of the search page, the log of
results as it is now, and what was read from it. -/
structure Browser where
  page : PageName
  shown : Screen
  search : SearchPage
  log : Option String
  loaded : Option Loaded

/-- What a user can do. -/
inductive UserOp where
  | type (text : String)
  | click (button : String)
  | chip (index : Nat)
  | choose (medium : Medium)
  | debug (on : Bool)
  | visit (page : PageName)
  | rerun
  /-- The log of results changes; the pages learn of it when they are run. -/
  | writeLog (log : Option String)

namespace Browser

/-- Shows a screen. -/
def showing (b : Browser) (screen : Screen) : Browser := { b with shown := screen }

/-- What a run of the table page works with: what was read once, or else what the log is read as. -/
def results (host : Host) (b : Browser) : Except PageError Loaded :=
  match b.loaded with
  | some loaded => .ok loaded
  | none => loadResults host.reading b.log

/-- Runs the page that is open. -/
def refresh (host : Host) (b : Browser) : Browser :=
  match b.page with
  | .search =>
    let search := b.search.synchronize
    { b with search }.showing search.screen
  | .table =>
    let read := b.results host
    { b with search := b.search.hidden, loaded := read.toOption }.showing
      { main := TablePage.main host.tables b.search.session read }

/-- A session that nothing was asked of yet. -/
def freshSession : Session :=
  ⟨Table.default, .text Medium.movie.name, .str "", [], [], {}, 0⟩

/-- A browser that has opened a page. -/
def opened (host : Host) (page : PageName) (log : Option String) : Browser :=
  refresh host ⟨page, {}, { session := freshSession }, log, none⟩

/-- The first button on a screen that is known by a key or reads as a label. -/
def buttonOf? (screen : Screen) (name : String) : Option Button :=
  screen.buttons.find? fun b => b.label == name || (b.key.map ButtonKey.text) == some name

/-- What a button of the search page does. -/
def press (search : SearchPage) (button : Button) : SearchPage :=
  match button.key with
  | some .apply => search.apply
  | some .clear => search.clear
  | some (.sample index) => search.useSample index
  | some (.chip id) => search.removeChip id
  | none => search.reset

/-- The search page as an operation leaves it that the widgets on the screen offer; `none` if what
it needs is not there. -/
def effect? (b : Browser) : UserOp → Option SearchPage
  | .type text => if b.page = .search then some { b.search with query := some text } else none
  | .choose medium =>
    if b.page = .search then some { b.search with medium := some medium } else none
  | .debug on => if b.page = .search then some { b.search with debug := on } else none
  | .click name => (buttonOf? b.shown name).map (press b.search)
  | .chip index =>
    if b.page = .search then
      b.search.session.chips[index]?.map fun chip => b.search.removeChip chip.id
    else none
  | _ => none

/-- How an operation went. -/
inductive Outcome where
  /-- What it needs is not on the screen. -/
  | impossible
  /-- It was done without running a page. -/
  | unseen
  /-- It was done and the page was run. -/
  | shown
  deriving DecidableEq

/-- The browser after an operation, and how it went. -/
def step (host : Host) (b : Browser) (op : UserOp) : Browser × Outcome :=
  match op with
  | .writeLog log => ({ b with log }, .unseen)
  | .rerun => (b.refresh host, .shown)
  | .visit page => ({ b with page }.refresh host, .shown)
  | widgetOp =>
    match b.effect? widgetOp with
    | none => (b, .impossible)
    | some search => ({ b with search }.refresh host, .shown)

/-- The browser after some operations. -/
def run (host : Host) (b : Browser) (ops : List UserOp) : Browser :=
  ops.foldl (fun b op => (b.step host op).1) b

end Browser

end FilmQuery
