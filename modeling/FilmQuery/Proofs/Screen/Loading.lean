/-
# Which log is shown

The table page shows the results of one log.  It reads the log when it is run, but what it has read
once it shows from there on, so all later runs show the first log that could be read, whatever has
become of it since (`Browser.evaluation_run`).  A missing log counts as read, too: the page then
says that there are no results, and goes on saying so when there are some
(`Browser.evaluation_outdated`).  A reading that fails is not kept, and the next run reads again.
Once a log was found that writes half a character, nothing is told (`Loaded.untold`).

What was read is a matter of the logs that the runs of the page have found (`Browser.logsFound`).
The step is one operation (`Browser.loaded_step`), the run is any number of them
(`Browser.loaded_run`).
-/
import FilmQuery.Proofs.Screen.Agreement
import FilmQuery.Proofs.Screen.TableViews

namespace FilmQuery

namespace Browser

variable {host : Host} {b : Browser} {op : UserOp}

/-- A run of the table page shows its results and keeps them if they could be read. -/
theorem refresh_of_table (onTable : b.page = .table) :
    (b.refresh host).shown =
        { main := TablePage.main host.tables b.search.session (b.results host) } ∧
      (b.refresh host).loaded = (b.results host).toOption ∧ (b.refresh host).log = b.log := by
  unfold refresh
  rw [onTable]
  exact ⟨rfl, rfl, rfl⟩

/-- Whether an operation runs the table page. -/
def RunsTable (host : Host) (b : Browser) (op : UserOp) : Prop :=
  (b.step host op).2 = .shown ∧ (b.step host op).1.page = .table

instance (b : Browser) (op : UserOp) : Decidable (b.RunsTable host op) :=
  inferInstanceAs (Decidable (_ ∧ _))

@[simp] theorem runsTable_visit {page : PageName} :
    b.RunsTable host (.visit page) ↔ page = .table := by
  have reached : (b.step host (.visit page)).1.page = page := page_refresh _
  rw [RunsTable, reached]
  exact and_iff_right rfl

@[simp] theorem not_runsTable_writeLog {log : Option String} :
    ¬ b.RunsTable host (.writeLog log) :=
  fun runs => nomatch runs.1

/-- The logs that the runs of the table page find. -/
def logsFound (host : Host) (b : Browser) : List UserOp → List (Option String)
  | [] => []
  | op :: ops =>
    (if b.RunsTable host op then [b.log] else []) ++ logsFound host (b.step host op).1 ops

/-- What is read of the first of some logs that can be read. -/
def firstRead (host : Host) (logs : List (Option String)) : Option Loaded :=
  logs.findSome? fun log => (loadResults host.reading log).toOption

theorem firstRead_append (logs later : List (Option String)) :
    firstRead host (logs ++ later) = (firstRead host logs).or (firstRead host later) :=
  List.findSome?_append

theorem toOption_results (host : Host) (b : Browser) :
    (b.results host).toOption = b.loaded.or (firstRead host [b.log]) := by
  unfold results firstRead
  cases b.loaded with
  | none => cases read : loadResults host.reading b.log <;> simp [read, Except.toOption]
  | some loaded => rfl

theorem loaded_refresh (host : Host) (b : Browser) :
    (b.refresh host).loaded =
      if (b.refresh host).page = .table then (b.results host).toOption else b.loaded := by
  rw [page_refresh]
  cases page : b.page with
  | search => rw [if_neg (by decide), refresh_search page]
  | table => rw [if_pos rfl, (refresh_of_table page).2.1]

theorem log_refresh (b : Browser) : (b.refresh host).log = b.log := by
  cases page : b.page with
  | search => rw [refresh_search page]
  | table => exact (refresh_of_table page).2.2

@[simp] theorem log_visit (b : Browser) (page : PageName) :
    (b.step host (.visit page)).1.log = b.log :=
  log_refresh _

/-- The step: only a run of the table page reads a log, unless one was read before. -/
theorem loaded_step (host : Host) (b : Browser) (op : UserOp) :
    (b.step host op).1.loaded =
      if b.RunsTable host op then (b.results host).toOption else b.loaded := by
  by_cases done : (b.step host op).2 = .shown
  · simp only [RunsTable, done, true_and]
    obtain ⟨page, next⟩ := exists_step_eq done
    rw [next]
    exact loaded_refresh host { b with page, search := b.found op }
  · obtain ⟨log, next⟩ := exists_step_eq_of_not_shown done
    rw [if_neg fun runs => done runs.1, next]

/-- The run: what is read in the end was read first. -/
theorem loaded_run (host : Host) (b : Browser) (ops : List UserOp) :
    (b.run host ops).loaded = b.loaded.or (firstRead host (b.logsFound host ops)) := by
  induction ops generalizing b with
  | nil => exact (Option.or_none).symm
  | cons op ops ih =>
      change ((b.step host op).1.run host ops).loaded = _
      rw [ih, loaded_step, logsFound]
      split
      next runs => rw [toOption_results, Option.or_assoc, firstRead_append]
      next => rfl

/-- A run of the table page shows the page for what was read first, or for what is read now. -/
theorem shown_step (runs : b.RunsTable host op) :
    ∃ session, (b.step host op).1.shown =
      { main := TablePage.main host.tables session (b.results host) } := by
  obtain ⟨done, onTable⟩ := runs
  obtain ⟨page, next⟩ := exists_step_eq done
  rw [next] at onTable ⊢
  rw [page_refresh] at onTable
  exact ⟨_, (refresh_of_table onTable).1⟩

theorem beneath_step (runs : b.RunsTable host op) :
    (b.step host op).1.shown.beneath TablePage.evaluationHeading =
      TablePage.evaluation host.tables (b.results host) := by
  obtain ⟨session, shown⟩ := shown_step runs
  rw [shown, TablePage.beneath_main]

/-- The logs that the runs of the table page have found from the opening on. -/
def logsFromStart (host : Host) (page : PageName) (log : Option String) (ops : List UserOp) :
    List (Option String) :=
  (if page = .table then [log] else []) ++ (opened host page log).logsFound host ops

/-- What is read in the end is the first log that was found and could be read. -/
theorem loaded_eq_firstRead (host : Host) (page : PageName) (log : Option String)
    (ops : List UserOp) :
    ((opened host page log).run host ops).loaded =
      firstRead host (logsFromStart host page log ops) := by
  have start : (opened host page log).loaded =
      firstRead host (if page = .table then [log] else []) := by
    rw [opened, loaded_refresh, page_refresh]
    split
    · exact toOption_results host _
    · rfl
  rw [loaded_run, start, logsFromStart, firstRead_append]

/-- What a run of the table page works with, after earlier runs have found some logs: what was read
of the first of them that could be read, or else what the log is read as now. -/
def resultsAfter (host : Host) (found : List (Option String)) (log : Option String) :
    Except PageError Loaded :=
  match firstRead host found with
  | some loaded => .ok loaded
  | none => loadResults host.reading log

theorem results_run (host : Host) (page : PageName) (log : Option String) (ops : List UserOp) :
    let b := (opened host page log).run host ops
    b.results host = resultsAfter host (logsFromStart host page log ops) b.log := by
  intro b
  rw [results, loaded_eq_firstRead]
  rfl

/-- As long as all logs that were found read like the present one, it does not matter which of them
was read. -/
theorem resultsAfter_of_same {found : List (Option String)} {log : Option String}
    (same : ∀ earlier ∈ found, loadResults host.reading earlier = loadResults host.reading log) :
    resultsAfter host found log = loadResults host.reading log := by
  unfold resultsAfter
  split
  next loaded first =>
    obtain ⟨earlier, mem, readable⟩ := List.exists_of_findSome?_eq_some first
    rw [same earlier mem] at readable
    cases read : loadResults host.reading log with
    | ok present =>
        rw [read] at readable
        exact congrArg Except.ok (Option.some_inj.mp readable).symm
    | error e =>
        rw [read] at readable
        cases readable
  next => rfl

theorem beneath_opened (host : Host) (log : Option String) :
    (opened host .table log).shown.beneath TablePage.evaluationHeading =
      TablePage.evaluation host.tables (loadResults host.reading log) := by
  rw [opened, (refresh_of_table rfl).1, TablePage.beneath_main]
  rfl

/-- Whatever the user does and whatever becomes of the log, a table page that is opened first shows
what the log is read as, and each later run of it shows the results of the first log that a run
found and could read; only if there was none, it shows what the log is read as now. So the page is
up to date as long as all logs found before read like the present one. -/
theorem evaluation_run (host : Host) (page : PageName) (log : Option String) (ops : List UserOp) :
    let b := (opened host page log).run host ops
    let found := logsFromStart host page log ops
    (opened host .table log).shown.beneath TablePage.evaluationHeading =
        TablePage.evaluation host.tables (loadResults host.reading log) ∧
      ∀ op, b.RunsTable host op →
        (b.step host op).1.shown.beneath TablePage.evaluationHeading =
            TablePage.evaluation host.tables (resultsAfter host found b.log) ∧
          ((∀ earlier ∈ found,
              loadResults host.reading earlier = loadResults host.reading b.log) →
            (b.step host op).1.shown.beneath TablePage.evaluationHeading =
              TablePage.evaluation host.tables (loadResults host.reading b.log)) := by
  intro b found
  refine ⟨beneath_opened host log, fun op runs => ?_⟩
  have shown := beneath_step runs
  rw [results_run] at shown
  refine ⟨shown, fun same => ?_⟩
  rw [shown, resultsAfter_of_same same]

/-- The log of one query that was read as it should be. -/
def moviesLog : String :=
  "\x7b\"query\": \"movies\", \"precision\": 1.0, \"recall\": 1.0, \"f1\": 1.0, " ++
    "\"exact_match\": 1.0, " ++
    "\"output\": \x7b\"fragments\": [\x7b\"kind\": \"content_type\"\x7d]\x7d\x7d"

/-- When the log is written before the table page is visited, a first visit finds it, and a second
visit shows what it is read as. -/
theorem evaluation_run_moviesLog :
    let ops := [.writeLog (some moviesLog), .visit .table, .visit .search]
    let b := (opened plainHost .search none).run plainHost ops
    logsFromStart plainHost .search none ops = [some moviesLog] ∧ b.log = some moviesLog ∧
      b.RunsTable plainHost (.visit .table) ∧
      (b.step plainHost (.visit .table)).1.shown.beneath TablePage.evaluationHeading =
        TablePage.evaluation plainTables (loadResults plainHost.reading (some moviesLog)) := by
  intro ops b
  have found : logsFromStart plainHost .search none ops = [some moviesLog] := by
    simp only [logsFromStart, logsFound, ops, not_runsTable_writeLog, runsTable_visit, reduceCtorEq,
      if_false, if_true, List.nil_append, List.append_nil]
    rfl
  have log : b.log = some moviesLog := by
    simp only [b, ops, run, List.foldl_cons, List.foldl_nil, log_visit]
    rfl
  have runs : b.RunsTable plainHost (.visit .table) := runsTable_visit.mpr rfl
  obtain ⟨_, later⟩ := evaluation_run plainHost .search none ops
  refine ⟨found, log, runs, ((later _ runs).2 ?_).trans (by rw [log]; rfl)⟩
  rw [found, log]
  exact fun earlier mem => congrArg _ (List.mem_singleton.mp mem)

/-- When the table page is opened first, it finds no log and asks for one. Once it is written there
are a summary, a chart and a table to show, but the page still finds no log. -/
theorem evaluation_outdated :
    let b := (opened plainHost .table none).run plainHost [.writeLog (some moviesLog)]
    b.RunsTable plainHost (.visit .table) ∧
      (b.step plainHost (.visit .table)).1.shown.beneath TablePage.evaluationHeading =
        [.info "No evaluation outputs found. Run `python scripts/run_eval.py` first."] ∧
      (TablePage.evaluation plainTables (loadResults plainHost.reading b.log)).length = 3 := by
  intro b
  have runs : b.RunsTable plainHost (.visit .table) := runsTable_visit.mpr rfl
  refine ⟨runs, ?_, ?_⟩
  · have nothing : b.results plainHost = .ok (.results []) := rfl
    rw [beneath_step runs, nothing]
    rfl
  · change (TablePage.evaluation plainTables
      (loadResults plainHost.reading (some moviesLog))).length = 3
    decide +kernel

end Browser

end FilmQuery
