/-
# Search pages and their sessions

A search page keeps what its widgets show beside its session, and a run of the page brings the two
together (`SearchPage.InStep`).  What the user asks of the page in between is asked of the session,
and it is never a reading (`SearchPage.Asks`).  Queries are read by the run that follows, if the
page then shows another query than the session has (`SearchPage.session_synchronize`).

So the session of a page is one that can be shown (`Session.IsShowable`), whatever is done to the
page: fragments are told apart, there are none without a query, and the patch applied last can be
written down (`SearchPage.IsSound`).
-/
import FilmQuery.Proofs.Query.Identity
import FilmQuery.Proofs.Session.History
import FilmQuery.Proofs.Session.Record
import FilmQuery.Screen.Browser

namespace FilmQuery

/-- The patch of fragments of record can be written down. -/
theorem OfRecord.exists_text {chips : List Fragment} (record : OfRecord chips) (search : Medium) :
    ∃ text, (Patch.digest search chips).text = .ok text := by
  obtain ⟨filters, sets, _⟩ := record.exists_filters search
  have word (words : List String) : Patch.writingFault? (lastWord words) = none := by
    rcases lastWord_eq words with nothing | ⟨_, _, said⟩
    · rw [nothing]
      rfl
    · rw [said]
      rfl
  have numbers (field : Field) {ids : List Int} (known : ∀ id ∈ ids, field.Knows id) :
      ∀ value ∈ distinctNumbers ids, Patch.writingFault? value = none := by
    rw [distinctNumbers, List.forall_mem_map]
    exact fun id mem => Patch.writingFault?_of_knows (known id (List.mem_eraseDups.mp mem))
  have writable : (Patch.digest search chips).words.findSome? Patch.writingFault? = none := by
    rw [List.findSome?_eq_none_iff, Patch.words, List.forall_mem_cons, List.forall_mem_cons,
      List.forall_mem_append, List.forall_mem_append]
    exact ⟨word _, word _,
      ⟨numbers .genres (record.mem_genreIds_of_said (.inl rfl)),
        numbers .watchProviders record.knows_of_said_provider⟩,
      numbers .withoutGenres (record.mem_genreIds_of_said (.inr rfl))⟩
  exact ⟨_, Patch.text_of_writable sets writable⟩

namespace Session

variable {s : Session} {op : SessionOp}

/-- A session of record whose query is a text and whose fragments are told apart. Without a query it
has none. -/
structure IsShowable (s : Session) : Prop where
  record : s.IsOfRecord
  text : ∃ text, s.query = .str text
  blank : s.query = .str "" → s.chips = []
  distinct : (s.chips.map Fragment.id).Nodup

theorem isShowable_fresh : Browser.freshSession.IsShowable where
  record :=
    have started : Session.start Table.default (.str "movie") [] = .ok Browser.freshSession := rfl
    isOfRecord_start started
  text := ⟨"", rfl⟩
  blank _ := rfl
  distinct := List.nodup_nil

theorem taken_str (text : String) : taken (.str text) = .str text := by
  unfold taken
  by_cases empty : text = "" <;> simp [Json.truthy, empty]

theorem IsShowable.parse (showable : s.IsShowable) (text : String) :
    (s.parse (.str text)).IsShowable := by
  have query : (s.parse (.str text)).query = .str text := taken_str text
  have chips : (s.parse (.str text)).chips = s.table.fragments s.readings (.str text) := by
    conv_rhs => rw [← taken_str text]
    rfl
  refine ⟨showable.record.run [.parse (.str text)], ⟨text, query⟩, ?_, ?_⟩
  · intro empty
    rw [query] at empty
    cases empty
    rw [chips]
    rfl
  · rw [chips]
    exact Table.nodup_ids _ _ _

/-- The step: unless a query is read, no fragment is added. -/
theorem IsShowable.advance (showable : s.IsShowable) (other : op.query? = none) :
    (s.advance op).IsShowable := by
  have record : (s.advance op).IsOfRecord := showable.record.run [op]
  have goesOn := s.advance_other other
  by_cases clears : op = .clear
  · obtain ⟨chips, query⟩ := goesOn.cleared clears
    exact ⟨record, ⟨"", query⟩, fun _ => chips, by rw [chips]; exact List.nodup_nil⟩
  · obtain ⟨query, chips⟩ := goesOn.kept clears
    refine ⟨record, by rw [query]; exact showable.text, ?_, ?_⟩
    · intro empty
      rw [chips, showable.blank (query ▸ empty), List.filter_nil]
    · rw [chips]
      exact showable.distinct.sublist (List.filter_sublist.map Fragment.id)

/-- To build a patch changes nothing. -/
theorem advance_buildPatch (s : Session) : s.advance .buildPatch = s := by
  unfold Session.advance
  rw [step]
  cases s.buildPatch <;> rfl

theorem advance_setContentType (s : Session) (medium : Medium) :
    s.advance (.setContentType (.str medium.name)) =
      { s with contentType := .text medium.name } := by
  cases medium <;> rfl

end Session

namespace SearchPage

variable {page : SearchPage}

/-- What of a search page stays true whatever the user does. -/
structure IsSound (page : SearchPage) : Prop where
  session : page.session.IsShowable
  printable : ∀ patch ∈ page.lastPatch, ∃ text, patch.text = .ok text

/-- The session has the query and the medium that the page shows. -/
structure InStep (page : SearchPage) : Prop where
  query : page.session.query = .str page.shownQuery
  medium : page.session.contentType = .text page.shownMedium.name

theorem same_str (text other : String) : Json.same (.str text) (.str other) = (text == other) := by
  simp [Json.same, Json.sameLeaf]

/-- A run of the page reads the query that is shown if the session has another one, and sets the
medium that is shown. -/
theorem session_synchronize (sound : page.IsSound) :
    page.synchronize.session =
      { (if page.session.query = .str page.shownQuery then page.session
          else page.session.parse (.str page.shownQuery)) with
        contentType := .text page.shownMedium.name } := by
  have same : Json.same page.session.query (.str page.shownQuery) =
      decide (page.session.query = .str page.shownQuery) := by
    obtain ⟨text, query⟩ := sound.session.text
    simp [query, same_str, Bool.beq_eq_decide_eq]
  simp only [synchronize, same, decide_eq_true_eq]
  split <;> rfl

theorem synchronize_inStep (sound : page.IsSound) : page.synchronize.InStep := by
  have session := session_synchronize sound
  have query : page.synchronize.session.query = .str page.shownQuery := by
    rw [session]
    dsimp only
    split
    next same => exact same
    next => exact Session.taken_str _
  exact ⟨query, by rw [session]; rfl⟩

theorem IsSound.synchronize (sound : page.IsSound) : page.synchronize.IsSound := by
  refine ⟨?_, sound.printable⟩
  rw [session_synchronize sound, ← Session.advance_setContentType]
  apply Session.IsShowable.advance _ rfl
  split
  · exact sound.session
  · exact sound.session.parse _

/-- What an operation makes of a page it asks of the session, and it asks for no reading. -/
structure Asks (page next : SearchPage) (op : SessionOp) : Prop where
  silent : op.query? = none
  session : next.session = page.session.advance op
  cleared : op = .clear → next.shownQuery = ""
  printable : page.IsSound → ∀ patch ∈ next.lastPatch, ∃ text, patch.text = .ok text

theorem Asks.nothing {next : SearchPage} (session : next.session = page.session)
    (lastPatch : next.lastPatch = page.lastPatch) : Asks page next .buildPatch where
  silent := rfl
  session := session.trans page.session.advance_buildPatch.symm
  cleared := nofun
  printable sound := by
    rw [lastPatch]
    exact sound.printable

theorem Asks.isSound {next : SearchPage} {op : SessionOp} (asks : Asks page next op)
    (sound : page.IsSound) : next.IsSound := by
  refine ⟨?_, asks.printable sound⟩
  rw [asks.session]
  exact sound.session.advance asks.silent

theorem asks_removeChip (page : SearchPage) (id : FragmentId) :
    Asks page (page.removeChip id) (.remove id) :=
  ⟨rfl, rfl, nofun, fun sound => sound.printable⟩

theorem asks_apply (sound : page.IsSound) : Asks page page.apply .apply := by
  obtain ⟨medium, _, building⟩ := sound.session.record.exists_buildPatch
  obtain ⟨patch, next, applied, _⟩ := sound.session.record.exists_apply
  have made : page.apply =
      { page with
        session := next, lastPatch := some patch, medium := some (sessionMedium next) } := by
    rw [apply, applied]
  refine ⟨rfl, ?_, nofun, ?_⟩
  · rw [made, Session.advance, Session.step, applied]
    rfl
  · intro _ written mem
    rw [made] at mem
    cases mem
    rw [(Session.apply_eq applied).1] at building
    cases building
    exact sound.session.record.chips.exists_text medium

end SearchPage

end FilmQuery
