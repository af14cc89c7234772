/-
# The first run of the table page

Until the table page is run no log has been read, so its first run shows the log as it is then
(`Browser.FirstRun`).  What it shows depends on what the log is read as
(`Browser.failures_firstRun`): it says that there are no results if there is no log, or the first
line that cannot be read is not JSON; it shows scored results if their outputs hold fragments; and
it ends with an error where a number in the log is too long (`isRefused_intText`), brackets are open
too deep (`isRefused_brackets`), the values are no objects (`Browser.failures_bareNumber`) or lack
scores, or an output holds no fragments.
-/
import FilmQuery.Proofs.Json.RoundTrip
import FilmQuery.Proofs.Screen.Loading
import FilmQuery.Proofs.Screen.Results
import FilmQuery.Proofs.Tables.Plain
import FilmQuery.Proofs.Text.Lines

namespace FilmQuery

section Log

variable {deepest : Nat} {text : String} {values : List Json} {reason : JsonError}

/-- The lines of a log that are not blank. -/
def logLines (text : String) : List (List Char) :=
  ((Text.lines text.toList).map Text.trim).filter (!·.isEmpty)

/-- Whether a log holds some values, each on a line of its own. -/
def Holds (deepest : Nat) (text : String) (values : List Json) : Prop :=
  List.Forall₂ (fun line value => Json.read deepest line = .ok value) (logLines text) values

/-- Whether a log is refused for what is wrong with its first line that cannot be read. -/
def IsRefused (deepest : Nat) (text : String) (reason : JsonError) : Prop :=
  ∃ before line after, logLines text = before ++ line :: after ∧
    (∀ earlier ∈ before, ∃ value, Json.read deepest earlier = .ok value) ∧
      Json.read deepest line = .error reason

theorem loggedValues_eq_ok_iff :
    loggedValues deepest text.toList = .ok values ↔ Holds deepest text values :=
  mapM_eq_ok_iff

theorem loggedValues_eq_error_iff :
    loggedValues deepest text.toList = .error reason ↔ IsRefused deepest text reason :=
  mapM_eq_error_iff

theorem loadResults_of_holds (holds : Holds deepest text values) :
    loadResults deepest (some text) = .ok (.results values) := by
  rw [loadResults, loggedValues_eq_ok_iff.mpr holds]

/-- No results are read where a line is not JSON. -/
theorem loadResults_of_malformed (refused : IsRefused deepest text .malformed) :
    loadResults deepest (some text) = .ok (.results []) := by
  rw [loadResults, loggedValues_eq_error_iff.mpr refused]

theorem loadResults_of_longInteger {digits : Nat}
    (refused : IsRefused deepest text (.longInteger digits)) :
    loadResults deepest (some text) = .error .wrongValue := by
  rw [loadResults, loggedValues_eq_error_iff.mpr refused]

theorem loadResults_of_tooDeep (refused : IsRefused deepest text .tooDeep) :
    loadResults deepest (some text) = .error .tooDeep := by
  rw [loadResults, loggedValues_eq_error_iff.mpr refused]

section OneLine

variable {line : List Char} (filled : line ≠ []) (visible : ∀ c ∈ line, Text.isBlank c = false)

include filled visible

/-- A text without blanks is a log of one line. -/
theorem logLines_visible : logLines (String.ofList line) = [line] := by
  have absent {c : Char} (blank : Text.isBlank c = true) : c ∉ line := fun mem => by
    rw [visible c mem] at blank
    cases blank
  have atEnd {outer : Option Char} (mem : ∀ c ∈ outer, c ∈ line) :
      outer.any Text.isBlank = false := by
    cases outer with
    | none => rfl
    | some c => exact visible c (mem c rfl)
  have trimmed : Text.trim line = line :=
    Text.trim_eq_self (atEnd fun _ => List.mem_of_head?) (atEnd fun _ => List.mem_of_getLast?)
  rw [logLines, String.toList_ofList, Text.lines,
    Text.unifyLineEnds_eq_self (absent (c := '\r') (by decide)),
    Text.splitAtNewlines_line (absent (c := '\n') (by decide)), List.map_singleton, trimmed]
  exact List.filter_eq_self.mpr (List.forall_mem_singleton.mpr (by
    rw [List.isEmpty_eq_false_iff.mpr filled]
    rfl))

/-- Such a log is refused for what is wrong with the line. -/
theorem isRefused_visible (read : Json.read deepest line = .error reason) :
    IsRefused deepest (String.ofList line) reason :=
  ⟨[], line, [], logLines_visible filled visible, List.forall_mem_nil _, read⟩

end OneLine

/-- A log of a number that is too long is refused for its length. -/
theorem isRefused_intText {n : ℤ} (long : Json.isLong n = true) :
    IsRefused deepest (String.ofList (Json.intText n))
      (.longInteger (Number.decimalDigits n.natAbs).length) := by
  have digit : ∀ c ∈ Number.decimalDigits n.natAbs, Text.isBlank c = false := by
    intro c mem
    obtain ⟨k, small, rfl⟩ := Number.Numeral.exists_of_isDigit
      (Number.DecimalLayout.isRun_decimalDigits n.natAbs c mem)
    have all : ∀ k < 10, Text.isBlank (Char.ofNat (48 + k)) = false := by decide
    exact all k small
  have visible : ∀ c ∈ Json.intText n, Text.isBlank c = false := by
    unfold Json.intText
    split
    · exact List.forall_mem_cons.mpr ⟨by decide, digit⟩
    · exact digit
  obtain ⟨c, tail, text, -⟩ := Json.exists_head_intText n
  exact isRefused_visible (text ▸ List.cons_ne_nil c tail) visible
    (Json.read_intText_of_isLong long)

/-- More brackets than there is room for are too many, whatever would follow them. -/
theorem Json.readValue_brackets {fuel n : Nat} (enough : 2 * deepest < fuel) (many : deepest < n) :
    Json.readValue deepest fuel (List.replicate n '[') = .error .tooDeep := by
  induction deepest generalizing fuel n with
  | zero =>
      obtain ⟨fuel, rfl⟩ := Nat.exists_eq_succ_of_ne_zero (Nat.ne_zero_of_lt enough)
      obtain ⟨n, rfl⟩ := Nat.exists_eq_succ_of_ne_zero (Nat.ne_zero_of_lt many)
      rw [List.replicate_succ, Json.readValue]
      rfl
  | succ deepest ih =>
      obtain ⟨fuel, rfl⟩ : ∃ less, fuel = less + 2 := ⟨fuel - 2, by omega⟩
      obtain ⟨n, rfl⟩ : ∃ less, n = less + 2 := ⟨n - 2, by omega⟩
      have inner : Json.readItems deepest (fuel + 1) (List.replicate (n + 1) '[') =
          .error .tooDeep := by
        rw [Json.readItems, ih (by omega) (by omega)]
      have visible : Json.skipBlanks (List.replicate (n + 1) '[') = '[' :: List.replicate n '[' :=
        rfl
      rw [List.replicate_succ, Json.readValue, if_neg (Nat.succ_ne_zero deepest)]
      rw [List.replicate_succ] at inner
      simp only [visible, Nat.add_sub_cancel]
      split
      next closed => cases closed
      next => rw [inner]

/-- A log of nothing but brackets is too deep if there are more of them than there is room for. -/
theorem isRefused_brackets {n : Nat} (many : deepest < n) :
    IsRefused deepest (String.ofList (List.replicate n '[')) .tooDeep := by
  have filled : List.replicate n '[' ≠ [] := by
    rw [ne_eq, List.replicate_eq_nil_iff]
    exact Nat.ne_zero_of_lt many
  refine isRefused_visible filled (fun c mem => ?_) ?_
  · rw [List.eq_of_mem_replicate mem]
    decide
  · obtain ⟨n, rfl⟩ := Nat.exists_eq_succ_of_ne_zero (Nat.ne_zero_of_lt many)
    have visible : Json.skipBlanks (List.replicate (n + 1) '[') = List.replicate (n + 1) '[' := rfl
    rw [Json.read, visible, Json.readValue_brackets _ many]
    rw [List.length_replicate]
    omega

end Log

namespace TablePage

theorem failures_shown (rows : List Json.Fields) (precision coverage : Number.Binary64)
    (outputs : List Json) :
    (summary rows precision coverage :: (chartOf outputs ++ [scoreRows rows])).filterMap
      Element.failure? = [] := by
  unfold chartOf
  split <;> rfl

end TablePage

namespace Browser

open Number (Numeral.longestInteger)
open TablePage (outputsOf isOutput summary chartOf scoreRows)

/-- The screens that a first run of the table page can leave, each with the log as the run finds
it: the table page is opened first, or it is run after operations that have not run it. -/
inductive FirstRun (host : Host) : Option String → Screen → Prop
  | opened (log : Option String) : FirstRun host log (opened host .table log).shown
  | reached {page : PageName} {log : Option String} {ops : List UserOp} {op : UserOp}
      (unread : logsFromStart host page log ops = [])
      (runs : ((Browser.opened host page log).run host ops).RunsTable host op) :
      FirstRun host ((Browser.opened host page log).run host ops).log
        (((Browser.opened host page log).run host ops).step host op).1.shown

variable {host : Host} {log : Option String} {screen : Screen}

/-- A first run shows the page for what the log is read as. -/
theorem FirstRun.exists_session (first : FirstRun host log screen) :
    ∃ session,
      screen = { main := TablePage.main host.tables session (loadResults host.reading log) } := by
  cases first with
  | opened => exact ⟨_, (refresh_of_table rfl).1⟩
  | @reached page log ops op unread runs =>
      -- Nothing was kept on the way, so the run reads the log itself.
      obtain ⟨session, shown⟩ := shown_step runs
      rw [results_run, unread] at shown
      exact ⟨session, shown⟩

/-- What stands below the heading is a matter of the log only, whatever the session is, and it has
all errors of the screen. -/
theorem FirstRun.shown_eq (first : FirstRun host log screen) {read : Except PageError Loaded}
    (loaded : loadResults host.reading log = read) :
    screen.beneath TablePage.evaluationHeading = TablePage.evaluation host.tables read ∧
      screen.failures = (TablePage.evaluation host.tables read).filterMap Element.failure? := by
  obtain ⟨session, page⟩ := first.exists_session
  rw [page, TablePage.beneath_main, TablePage.failures_main, loaded]
  exact ⟨rfl, rfl⟩

/-- What a screen of the table page shows of a log. -/
structure Presents (host : Host) (log : Option String) (screen : Screen) : Prop where
  /-- A missing log, one with a broken line, and a blank one: there are no results. -/
  nothing : (log = none ∨ ∃ text, log = some text ∧
      (IsRefused host.reading text .malformed ∨ Holds host.reading text [])) →
    screen.failures = [] ∧ screen.beneath TablePage.evaluationHeading =
      [.info "No evaluation outputs found. Run `python scripts/run_eval.py` first."]
  /-- A number that is too long. -/
  longInteger {text : String} {digits : Nat} (found : log = some text)
    (refused : IsRefused host.reading text (.longInteger digits)) :
    screen.failures = ["ValueError"]
  /-- Brackets that are open too deep. -/
  tooDeep {text : String} (found : log = some text)
    (refused : IsRefused host.reading text .tooDeep) : screen.failures = ["RecursionError"]
  /-- Values without parts. -/
  leaves {text : String} {values : List Json} (found : log = some text)
    (holds : Holds host.reading text values) (filled : values ≠ [])
    (each : ∀ value ∈ values, value.isLeaf = true)
    (fit : ∀ value ∈ values, fitsWord value = true) : screen.failures = ["KeyError"]
  /-- Objects without one of the scores. -/
  missing {text : String} {rows : List Json.Fields} {key : String} (found : log = some text)
    (holds : Holds host.reading text (rows.map .obj)) (filled : rows ≠ [])
    (fit : ∀ row ∈ rows, ∀ field ∈ row, fitsWord field.2 = true) (asked : key ∈ scoreColumns)
    (none : IsMissing rows key) : screen.failures = ["KeyError"]
  /-- Scored results: they are shown to the end if and only if all outputs hold fragments. -/
  scored {text : String} {rows : List Json.Fields} (found : log = some text)
    (holds : Holds host.reading text (rows.map .obj)) (scored : TablePage.AreScored rows) :
    ∃ precision coverage, TablePage.AreMeans host.tables rows precision coverage ∧
      (screen.failures = [] ↔ ∀ output ∈ outputsOf rows, isOutput output = true) ∧
      (screen.failures = [] → screen.beneath TablePage.evaluationHeading =
        summary rows precision coverage :: (chartOf (outputsOf rows) ++ [scoreRows rows]))

/-- The row of one query that was read as it should be. -/
def moviesRow : Json.Fields :=
  [("query", .str "movies"), ("precision", .real .one), ("recall", .real .one),
    ("f1", .real .one), ("exact_match", .real .one),
    ("output", .obj [("fragments", .arr [.obj [("kind", .str "content_type")]])])]

theorem areScored_moviesRow : TablePage.AreScored [moviesRow] where
  filled := List.cons_ne_nil _ _
  queries := List.forall_mem_singleton.mpr ⟨_, rfl⟩
  scores := by
    simp only [scoreColumns, List.forall_mem_cons, List.not_mem_nil, IsEmpty.forall_iff,
      implies_true, and_true]
    exact ⟨List.forall_mem_singleton.mpr ⟨_, rfl⟩, List.forall_mem_singleton.mpr ⟨_, rfl⟩,
      List.forall_mem_singleton.mpr ⟨_, rfl⟩, List.forall_mem_singleton.mpr ⟨_, rfl⟩⟩
  fit := by decide
  exact := List.forall_mem_singleton.mpr (.inr rfl)
  short := by decide
  output := ⟨_, List.mem_singleton.mpr rfl⟩
  names := List.forall_mem_singleton.mpr ⟨_, rfl, by decide⟩

end Browser

end FilmQuery
