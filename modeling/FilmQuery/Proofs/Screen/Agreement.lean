/-
# What the search page shows

Whatever the user does, the search page shows what its session has: its query, its medium, its
filters, and a button for every fragment (`Browser.agrees_run`).

An operation of the user sets a widget or presses a button (`Browser.effect_cases`), and what is
done to the search page is asked of its session (`Browser.exists_asks_found`).  The run that follows
works on the page as it is then (`Browser.exists_step_eq`).  The step is one operation
(`Browser.IsSound.step`), the run is any number of them (`Browser.isSound_run`).
-/
import FilmQuery.PlainTables
import FilmQuery.Proofs.Screen.Upkeep
import FilmQuery.Proofs.Screen.Views

namespace FilmQuery

namespace Browser

open SearchPage (Asks)

variable {host : Host} {b : Browser} {op : UserOp} {search : SearchPage}

/-- The fragment whose button an operation presses. -/
def pressed? (b : Browser) : UserOp → Option FragmentId
  | .click name => (buttonOf? b.shown name).bind Button.chip?
  | .chip index => b.search.session.chips[index]?.map Fragment.id
  | _ => none

/-- The search page as the run finds it that follows an operation. -/
def found (b : Browser) (op : UserOp) : SearchPage := (b.effect? op).getD b.search

/-- An operation presses a button, or it sets a widget. -/
theorem effect_cases (made : b.effect? op = some search) :
    (∃ button, search = press b.search button ∧ b.pressed? op = button.chip?) ∨
      b.pressed? op = none ∧ search.session = b.search.session ∧
        search.lastPatch = b.search.lastPatch := by
  cases op with
  | type | choose | debug =>
      obtain ⟨_, made⟩ := Option.ite_none_right_eq_some.mp made
      cases made
      exact .inr ⟨rfl, rfl, rfl⟩
  | click name =>
      obtain ⟨button, there, rfl⟩ := Option.map_eq_some_iff.mp made
      exact .inl ⟨button, rfl, by rw [pressed?, there]; rfl⟩
  | chip index =>
      obtain ⟨_, made⟩ := Option.ite_none_right_eq_some.mp made
      obtain ⟨chip, there, rfl⟩ := Option.map_eq_some_iff.mp made
      exact .inl ⟨SearchPage.chipButton chip, rfl, by rw [pressed?, there]; rfl⟩
  | visit | rerun | writeLog => cases made

theorem press_of_chip {button : Button} {id : FragmentId} (key : button.chip? = some id)
    (search : SearchPage) : press search button = search.removeChip id := by
  unfold Button.chip? at key
  split at key
  next same =>
    cases key
    rw [press, same]
  next => cases key

theorem exists_asks_press (sound : search.IsSound) (button : Button) :
    ∃ sessionOp, Asks search (press search button) sessionOp := by
  unfold press
  split
  · exact ⟨_, SearchPage.asks_apply sound⟩
  · exact ⟨.clear, rfl, rfl, fun _ => rfl, fun sound => sound.printable⟩
  · exact ⟨_, .nothing rfl rfl⟩
  · exact ⟨_, SearchPage.asks_removeChip _ _⟩
  · exact ⟨.reset, rfl, rfl, nofun, fun _ => by simp [SearchPage.reset]⟩

/-- What an operation does to the search page is asked of its session. -/
theorem exists_asks_found (sound : b.search.IsSound) (op : UserOp) :
    ∃ sessionOp, Asks b.search (b.found op) sessionOp := by
  unfold found
  cases made : b.effect? op with
  | none => exact ⟨_, .nothing rfl rfl⟩
  | some search =>
      rcases effect_cases made with ⟨button, rfl, _⟩ | ⟨_, session, lastPatch⟩
      · exact exists_asks_press sound button
      · exact ⟨_, .nothing session lastPatch⟩

theorem IsSound.found (sound : b.search.IsSound) (op : UserOp) : (b.found op).IsSound := by
  obtain ⟨_, asks⟩ := exists_asks_found sound op
  exact asks.isSound sound

/-- An operation that runs a page runs it on what it has made of the search page. -/
theorem exists_step_eq (done : (b.step host op).2 = .shown) :
    ∃ page, (b.step host op).1 = { b with page, search := b.found op }.refresh host := by
  unfold step at done ⊢
  split at done
  · cases done
  · exact ⟨b.page, rfl⟩
  · exact ⟨_, rfl⟩
  · split at done
    · cases done
    next search made => exact ⟨b.page, by simp [Browser.found, made]⟩

/-- An operation that runs no page leaves the pages as they are. -/
theorem exists_step_eq_of_not_shown (undone : (b.step host op).2 ≠ .shown) :
    ∃ log, (b.step host op).1 = { b with log } := by
  unfold step at undone ⊢
  split
  · exact ⟨_, rfl⟩
  · exact absurd rfl undone
  · exact absurd rfl undone
  · split
    · exact ⟨b.log, rfl⟩
    next search made => exact absurd (by simp [made]) undone

theorem refresh_search (onSearch : b.page = .search) :
    b.refresh host =
      { b with search := b.search.synchronize, shown := b.search.synchronize.screen } := by
  unfold refresh
  split
  next => rfl
  next onTable =>
    rw [onSearch] at onTable
    cases onTable

theorem refresh_table (onTable : b.page = .table) :
    (b.refresh host).page = .table ∧ (b.refresh host).search = b.search.hidden := by
  unfold refresh
  split
  next onSearch =>
    rw [onTable] at onSearch
    cases onSearch
  next => exact ⟨onTable, rfl⟩

theorem page_refresh (b : Browser) : (b.refresh host).page = b.page := by
  cases page : b.page with
  | search =>
      rw [refresh_search page]
      exact page
  | table => exact (refresh_table page).1

/-- What stays true of a browser whatever the user does. -/
structure IsSound (b : Browser) : Prop where
  search : b.search.IsSound
  inStep : b.page = .search → b.search.InStep
  shown : b.page = .search → b.shown.Tells b.search

/-- A run of the search page ends in step with its session, and shows it. -/
theorem isSound_refresh (sound : b.search.IsSound) : (b.refresh host).IsSound := by
  cases page : b.page with
  | search =>
      rw [refresh_search page]
      exact ⟨sound.synchronize, fun _ => SearchPage.synchronize_inStep sound,
        fun _ => SearchPage.tells_screen sound.synchronize.printable⟩
  | table =>
      obtain ⟨onTable, hidden⟩ : (b.refresh host).page = .table ∧ _ := refresh_table page
      have off (onSearch : (b.refresh host).page = .search) : False := by
        rw [onTable] at onSearch
        cases onSearch
      refine ⟨?_, fun onSearch => (off onSearch).elim, fun onSearch => (off onSearch).elim⟩
      rw [hidden]
      exact ⟨sound.session, sound.printable⟩

/-- The step: a browser stays sound. -/
theorem IsSound.step (sound : b.IsSound) (op : UserOp) : (b.step host op).1.IsSound := by
  by_cases done : (b.step host op).2 = .shown
  · obtain ⟨page, next⟩ := exists_step_eq done
    rw [next]
    exact isSound_refresh (IsSound.found sound.search op)
  · obtain ⟨log, next⟩ := exists_step_eq_of_not_shown done
    rw [next]
    exact ⟨sound.search, sound.inStep, sound.shown⟩

theorem isSound_fresh : ({ session := freshSession } : SearchPage).IsSound :=
  ⟨Session.isShowable_fresh, by simp⟩

/-- What every operation keeps holds after all of them. -/
theorem run_preserves {P : Browser → Prop} (preserves : ∀ b op, P b → P (b.step host op).1)
    (holds : P b) (ops : List UserOp) : P (b.run host ops) := by
  induction ops generalizing b with
  | nil => exact holds
  | cons op ops ih => exact ih (preserves b op holds)

/-- The run: a browser is sound whatever the user does. -/
theorem isSound_run (host : Host) (page : PageName) (log : Option String) (ops : List UserOp) :
    ((opened host page log).run host ops).IsSound :=
  run_preserves (fun _ op sound => sound.step op) (isSound_refresh isSound_fresh) ops

/-- What is on the screen agrees with the session. -/
structure Agrees (b : Browser) : Prop where
  query : ∃ text, b.shown.fieldTexts = [text] ∧ b.search.session.query = .str text
  medium : ∃ medium : Medium, b.shown.choices = [medium.label] ∧
    b.search.session.contentType = .text medium.name
  filters : b.shown.under? filterHeading = some (.ofFilters b.search.session.filters)
  chips : b.shown.chipButtons = b.search.session.chips.map SearchPage.chipButton
  failures : b.shown.failures = []

/-- While the search page is open, what is on the screen agrees with the session. -/
theorem IsSound.agrees (sound : b.IsSound) (onSearch : b.page = .search) : b.Agrees :=
  have inStep := sound.inStep onSearch
  have tells := sound.shown onSearch
  { query := ⟨_, tells.fieldTexts, inStep.query⟩
    medium := ⟨_, tells.choices, inStep.medium⟩
    filters := tells.filters
    chips := tells.chipButtons
    failures := tells.failures }

/-- A run of the search page works on what it finds after the operation. -/
theorem search_step (done : (b.step host op).2 = .shown)
    (onSearch : (b.step host op).1.page = .search) :
    (b.step host op).1.search = (b.found op).synchronize := by
  obtain ⟨page, next⟩ := exists_step_eq done
  rw [next] at onSearch ⊢
  rw [page_refresh] at onSearch
  rw [refresh_search onSearch]

/-- How a session goes on from one run of the page to the next if no query is read: nothing is
counted, and of the fragments only some are left, without those whose button was pressed. -/
structure Keeps (b after : Browser) (op : UserOp) : Prop where
  counts : after.search.session.counts = b.search.session.counts
  readings : after.search.session.readings = b.search.session.readings
  chips : after.search.session.chips.Sublist b.search.session.chips
  pressed : ∀ id ∈ b.pressed? op, id ∉ after.search.session.chips.map Fragment.id

theorem not_mem_withoutFragment (chips : List Fragment) (id : FragmentId) :
    id ∉ (withoutFragment chips id).map Fragment.id := by
  intro mem
  obtain ⟨f, left, same⟩ := List.mem_map.mp mem
  have apart := (List.mem_filter.mp left).2
  rw [same, bne_self_eq_false] at apart
  cases apart

/-- A fragment whose button is pressed is gone. -/
theorem not_mem_of_pressed {id : FragmentId} (opened : b.page = .search)
    (pressed : b.pressed? op = some id) : id ∉ (b.found op).session.chips.map Fragment.id := by
  obtain ⟨search, made⟩ : ∃ search, b.effect? op = some search := by
    cases op with
    | click name =>
        obtain ⟨button, there, _⟩ := Option.bind_eq_some_iff.mp pressed
        exact ⟨_, Option.map_eq_some_iff.mpr ⟨button, there, rfl⟩⟩
    | chip index =>
        obtain ⟨chip, there, _⟩ := Option.map_eq_some_iff.mp pressed
        exact ⟨_, (if_pos opened).trans (Option.map_eq_some_iff.mpr ⟨chip, there, rfl⟩)⟩
    | type | choose | debug | visit | rerun | writeLog => cases pressed
  rw [found, made, Option.getD_some]
  rcases effect_cases made with ⟨button, rfl, same⟩ | ⟨idle, _⟩
  · rw [press_of_chip (same.symm.trans pressed)]
    exact not_mem_withoutFragment _ _
  · rw [pressed] at idle
    cases idle

/-- A run that leaves the text in the field as it is reads no query. -/
theorem keeps_step (sound : b.IsSound) (opened : b.page = .search)
    (done : (b.step host op).2 = .shown) (onSearch : (b.step host op).1.page = .search)
    (unchanged : (b.step host op).1.shown.fieldTexts = b.shown.fieldTexts) :
    b.Keeps (b.step host op).1 op := by
  have search := search_step done onSearch
  obtain ⟨sessionOp, asks⟩ := exists_asks_found sound.search op
  have tells := sound.shown opened
  have tellsNext := (sound.step op).shown onSearch
  have text : (b.found op).shownQuery = b.search.shownQuery := by
    rw [tells.fieldTexts, tellsNext.fieldTexts, search] at unchanged
    exact List.singleton_inj.mp unchanged
  have goesOn := b.search.session.advance_other asks.silent
  rw [← asks.session] at goesOn
  have same : (b.found op).session.query = .str (b.found op).shownQuery := by
    by_cases clears : sessionOp = .clear
    · rw [(goesOn.cleared clears).2, asks.cleared clears]
    · rw [(goesOn.kept clears).1, text]
      exact (sound.inStep opened).query
  have session := SearchPage.session_synchronize (asks.isSound sound.search)
  rw [if_pos same, ← search] at session
  have chips : (b.step host op).1.search.session.chips = (b.found op).session.chips := by
    rw [session]
  constructor
  · rw [session]
    exact goesOn.counts
  · rw [session]
    exact goesOn.readings
  · rw [chips]
    by_cases clears : sessionOp = .clear
    · rw [(goesOn.cleared clears).1]
      exact List.nil_sublist _
    · rw [(goesOn.kept clears).2]
      exact List.filter_sublist
  · intro id pressed
    rw [chips]
    exact not_mem_of_pressed opened pressed

/-- Whatever the user does, patches can be applied, and every run of the search page ends without an
error and leaves on the screen what the session has.  A run reads the query in the field if and only
if the session has another one, so when the text stays as it was, nothing is counted and no fragment
comes back. -/
theorem agrees_run (host : Host) (page : PageName) (log : Option String) (ops : List UserOp) :
    let b := (opened host page log).run host ops
    (∃ patch next, b.search.session.apply = .ok (patch, next)) ∧
      (ops = [] → page = .search → b.Agrees) ∧
      ∀ op, (b.step host op).2 = .shown → (b.step host op).1.page = .search →
        (b.step host op).1.Agrees ∧
          (b.step host op).1.search.session =
            { (if (b.found op).session.query = .str (b.found op).shownQuery then
                (b.found op).session
              else (b.found op).session.parse (.str (b.found op).shownQuery)) with
              contentType := .text (b.found op).shownMedium.name } ∧
          (b.page = .search → (b.step host op).1.shown.fieldTexts = b.shown.fieldTexts →
            b.Keeps (b.step host op).1 op) := by
  intro b
  have sound : b.IsSound := isSound_run host page log ops
  refine ⟨?_, ?_, ?_⟩
  · obtain ⟨patch, next, applied, _⟩ := sound.search.session.record.exists_apply
    exact ⟨patch, next, applied⟩
  · rintro rfl rfl
    exact sound.agrees rfl
  · intro op done onSearch
    refine ⟨(sound.step op).agrees onSearch, ?_,
      fun opened => keeps_step sound opened done onSearch⟩
    rw [search_step done onSearch]
    exact SearchPage.session_synchronize (IsSound.found sound.search op)

/-- Shows are chosen before anything is typed: the page then searches for shows, and nothing is
counted. -/
theorem agrees_run_choose :
    let b := opened plainHost .search none
    let after := (b.step plainHost (.choose .tv)).1
    after.Agrees ∧ after.search.session.contentType = .text "tv" ∧
      after.search.session.counts = b.search.session.counts := by
  obtain ⟨agrees, session, keeps⟩ :=
    (agrees_run plainHost .search none []).2.2 (.choose .tv) rfl rfl
  exact ⟨agrees, congrArg Session.contentType session, (keeps rfl rfl).counts⟩

end Browser

end FilmQuery
