/-
# Leaving the search page and coming back

While the table page is shown, the widgets of the search page forget what they showed.  When the
search page is opened again, the choice of the medium is taken from the session, so it is what it
was, and so are the filters.  The field for the query is empty, and the run reads this empty query,
which drops the fragments (`SearchPage.session_return`).  So nothing is lost if and only if there
was no query (`Browser.returns_run`).
-/
import FilmQuery.Proofs.Screen.Agreement

namespace FilmQuery

namespace SearchPage

variable {page : SearchPage}

theorem sessionMedium_eq {session : Session} {medium : Medium}
    (searches : session.contentType = .text medium.name) : sessionMedium session = medium := by
  rw [sessionMedium, searches]
  cases medium <;> rfl

/-- The medium that is shown survives the time when its widget is off the screen. -/
theorem InStep.shownMedium_hidden (inStep : page.InStep) :
    page.hidden.shownMedium = page.shownMedium :=
  sessionMedium_eq inStep.medium

theorem IsSound.hidden (sound : page.IsSound) : page.hidden.IsSound :=
  ⟨sound.session, sound.printable⟩

/-- The empty query drops the fragments, and nothing is counted. -/
theorem parse_empty (session : Session) :
    session.parse (.str "") =
      { session with query := .str "", chips := [], readings := session.readings + 1 } :=
  rfl

/-- A run of the page after its widgets were off the screen drops the query and the fragments, and
keeps the rest. -/
theorem session_return (sound : page.IsSound) (inStep : page.InStep) :
    ∃ readings, page.hidden.synchronize.session =
      { page.session with query := .str "", chips := [], readings } := by
  have shown : page.hidden.shownQuery = "" := rfl
  rw [session_synchronize sound.hidden, inStep.shownMedium_hidden, ← inStep.medium, shown]
  change ∃ readings, { (if page.session.query = .str "" then page.session
    else page.session.parse (.str "")) with contentType := page.session.contentType } = _
  split
  next empty =>
    refine ⟨page.session.readings, ?_⟩
    rw [← empty, ← sound.session.blank empty]
  next =>
    rw [parse_empty]
    exact ⟨page.session.readings + 1, rfl⟩

end SearchPage

namespace Browser

variable {host : Host} {b : Browser}

/-- The operations that lead to the table page and back. -/
def thereAndBack : List UserOp := [.visit .table, .visit .search]

/-- How the search page comes back: in step with its session, without a query and without fragments,
with the choice and the filters that it had. -/
structure Returns (b after : Browser) : Prop where
  page : after.page = .search
  agrees : after.Agrees
  fieldTexts : after.shown.fieldTexts = [""]
  chips : after.search.session.chips = []
  choices : after.shown.choices = b.shown.choices
  filters : after.shown.under? filterHeading = b.shown.under? filterHeading
  counts : after.search.session.counts = b.search.session.counts
  lastPatch : after.search.lastPatch = b.search.lastPatch

theorem search_thereAndBack (host : Host) (b : Browser) :
    (b.run host thereAndBack).page = .search ∧
      (b.run host thereAndBack).search = b.search.hidden.synchronize := by
  have hidden : (b.step host (.visit .table)).1.search = b.search.hidden :=
    (@refresh_table host { b with page := .table } rfl).2
  have shown : b.run host thereAndBack =
      { (b.step host (.visit .table)).1 with page := .search }.refresh host := rfl
  rw [shown, refresh_search rfl]
  exact ⟨rfl, congrArg SearchPage.synchronize hidden⟩

/-- Wherever the search page is left, this is how it comes back. -/
theorem IsSound.returns (sound : b.IsSound) (onSearch : b.page = .search) :
    b.Returns (b.run host thereAndBack) := by
  obtain ⟨page, search⟩ := search_thereAndBack host b
  have inStep := sound.inStep onSearch
  obtain ⟨_, session⟩ := SearchPage.session_return sound.search inStep
  rw [← search] at session
  have tells := sound.shown onSearch
  have agrees : (b.run host thereAndBack).Agrees :=
    ((sound.step (.visit .table)).step (.visit .search)).agrees page
  refine ⟨page, agrees, ?_, by rw [session], ?_, ?_, by rw [session], by rw [search]; rfl⟩
  · obtain ⟨text, shown, query⟩ := agrees.query
    rw [session] at query
    cases query
    exact shown
  · obtain ⟨medium, shown, searches⟩ := agrees.medium
    rw [session, inStep.medium] at searches
    have same : b.search.shownMedium = medium := by
      injection searches with plain
      injection plain with name
      exact Medium.name_inj.mp name
    rw [shown, tells.choices, same]
  · rw [agrees.filters, tells.filters, session]

/-- Whatever the user has done, when the search page is left and opened again it has the choice of
the medium and the filters that it had, and no text and no fragments. This is what it had if and
only if the field was empty. -/
theorem returns_run (host : Host) (page : PageName) (log : Option String) (ops : List UserOp) :
    let b := (opened host page log).run host ops
    let after := b.run host thereAndBack
    b.page = .search → b.Returns after ∧
      ((after.shown.fieldTexts = b.shown.fieldTexts ∧
          after.search.session.chips = b.search.session.chips) ↔ b.shown.fieldTexts = [""]) := by
  intro b after onSearch
  have sound : b.IsSound := isSound_run host page log ops
  have returns : b.Returns after := sound.returns onSearch
  refine ⟨returns, ?_⟩
  rw [returns.fieldTexts, returns.chips]
  refine ⟨fun same => same.1.symm, fun empty => ⟨empty.symm, ?_⟩⟩
  rw [(sound.shown onSearch).fieldTexts] at empty
  have query := (sound.inStep onSearch).query
  rw [List.singleton_inj.mp empty] at query
  exact (sound.search.session.blank query).symm

/-- Shows are chosen: they are still chosen when the page comes back, and as nothing was typed,
nothing is lost. -/
theorem returns_run_choose :
    let b := (opened plainHost .search none).run plainHost [.choose .tv]
    let after := b.run plainHost thereAndBack
    b.page = .search ∧ b.shown.choices = ["TV Shows"] ∧ after.shown.choices = ["TV Shows"] ∧
      after.shown.fieldTexts = b.shown.fieldTexts := by
  obtain ⟨returns, nothingLost⟩ := returns_run plainHost .search none [.choose .tv] rfl
  exact ⟨rfl, rfl, returns.choices.trans rfl, (nothingLost.mpr rfl).1⟩

/-- Films, then shows. -/
def moviesShows : List Fragment :=
  [{ id := .made .contentType 0 0 0, kind := .contentType, value := .text "movie",
      label := "Movies", source := "movies", offsets := [0, 1, 2, 3, 4, 5] },
    { id := .made .contentType 1 0 7, kind := .contentType, value := .text "tv",
      label := "TV Shows", source := "shows", offsets := [7, 8, 9, 10, 11] }]

/-- Two rules read all there is to read about films and shows. -/
theorem fragments_moviesShows :
    Table.default.fragments 0 (.str "movies shows") = moviesShows := by
  have claims : DefaultRules.all[0].claims 0 0 (.ofText "movies shows".toList) =
        moviesShows.take 1 ∧
      DefaultRules.all[1].claims 1 0
          ((PlacedText.ofText "movies shows".toList).without (moviesShows.take 1)) =
        moviesShows.drop 1 ∧
      (((PlacedText.ofText "movies shows".toList).without (moviesShows.take 1)).without
        (moviesShows.drop 1)).chars.all Text.isBlank = true := by
    decide +kernel
  have rules : DefaultRules.all =
      DefaultRules.all[0] :: DefaultRules.all[1] :: DefaultRules.all.drop 2 := by
    rw [List.getElem_cons_drop, List.getElem_cons_drop, List.drop_zero]
  have others := DefaultRules.readParts_blank
    (fun _ mem => List.mem_of_mem_drop (i := 2) mem) 0 2 claims.2.2
  calc
    _ = (Table.default.read 0 "movies shows".toList).fragments := rfl
    _ = (readParts 0 0 (DefaultRules.all[0] :: DefaultRules.all[1] :: DefaultRules.all.drop 2)
          (.ofText "movies shows".toList)).flatten := by
      rw [DefaultRules.read_fragments, ← rules]
    _ = moviesShows := by
      rw [readParts, readParts, claims.1, claims.2.1, List.flatten_cons, List.flatten_cons, others,
        List.append_nil, List.take_append_drop]

/-- Films and shows are typed: when the page comes back, the text and the fragments are gone. -/
theorem fieldTexts_lost :
    let b := (opened plainHost .search none).run plainHost [.type "movies shows"]
    let after := b.run plainHost thereAndBack
    b.page = .search ∧ b.shown.fieldTexts = ["movies shows"] ∧
      b.search.session.chips.map Fragment.label = ["Movies", "TV Shows"] ∧
      after.shown.fieldTexts = [""] ∧ after.search.session.chips = [] := by
  intro b after
  have sound : b.IsSound := isSound_run plainHost .search none [.type "movies shows"]
  have returns : b.Returns after := sound.returns rfl
  have chips : b.search.session.chips = moviesShows := fragments_moviesShows
  exact ⟨rfl, (sound.shown rfl).fieldTexts, by rw [chips]; rfl, returns.fieldTexts,
    returns.chips⟩

end Browser

end FilmQuery
