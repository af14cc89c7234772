/-
# Sessions of record

The fragments and the filters of a session with the rules of record that starts without filters are
of record, whatever is asked of it (`Session.IsOfRecord`).  So nothing that is asked of it fails but
a change to a content type that is none.  Its filters have the keys of a patch and hold what these
allow, and until they are emptied their lists only grow.

The step is one operation (`IsOfRecord.step`, `IsOfRecord.grows_step`), the run is any number of
them (`IsOfRecord.run`, `IsOfRecord.grows_run`).  Of all operations only applying a patch adds to
the filters (`IsOfRecord.exists_apply`).
-/
import FilmQuery.Proofs.Patch.Settings
import FilmQuery.Proofs.Session.Medium

namespace FilmQuery

/-- A session with the rules of record, which searches for films or shows and whose fragments and
filters are of record. -/
structure Session.IsOfRecord (s : Session) : Prop where
  ofTable : s.table = Table.default
  medium : s.NamesMedium
  chips : OfRecord s.chips
  filters : s.filters.IsSound

namespace Session

variable {s next : Session}

theorem isOfRecord_start {contentType : Json}
    (started : Session.start Table.default contentType [] = .ok s) : s.IsOfRecord := by
  obtain ⟨medium, _, rfl⟩ := exists_of_map_ok started
  exact ⟨rfl, ⟨medium, rfl⟩, .nil, Filters.isSound_nil⟩

namespace IsOfRecord

theorem ofRecord_fragments (record : s.IsOfRecord) (run : Nat) (query : Json) :
    OfRecord (s.table.fragments run query) := by
  rw [record.ofTable]
  exact OfRecord.fragments run query

theorem exists_buildPatch (record : s.IsOfRecord) : ∃ medium, s.contentType = .text medium.name ∧
    s.buildPatch = .ok (Patch.digest medium s.chips) := by
  obtain ⟨medium, named⟩ := record.medium
  exact ⟨medium, named, (buildPatch_eq named).trans (record.chips.ofFragments_eq_digest medium)⟩

/-- Fragments of record can be applied to filters of record, and lists only grow. -/
theorem exists_apply (record : s.IsOfRecord) : ∃ patch next, s.apply = .ok (patch, next) ∧
    next.IsOfRecord ∧ Filters.Grows s.filters next.filters := by
  obtain ⟨medium, named, building⟩ := record.exists_buildPatch
  obtain ⟨changes, sets, _⟩ := record.chips.exists_filters medium
  by_cases empty : changes.isEmpty = true
  · have applied : s.apply = .ok (Patch.digest medium s.chips, s) := by
      simp only [apply, building, sets, empty, bind, Except.bind, pure, Except.pure, if_true]
    exact ⟨_, s, applied, record, Filters.Grows.refl s.filters⟩
  · obtain ⟨filters, merged, sound, grows⟩ :=
      record.filters.exists_merge (record.chips.isEntry_of_filters medium sets)
    let said := (Patch.digest medium s.chips).contentType
    let contentType := if said = .nothing then s.contentType else said
    have applied : s.apply =
        .ok (Patch.digest medium s.chips, { s with filters, contentType }) := by
      simp only [apply, building, sets, merged, empty, bind, Except.bind, pure, Except.pure]
      rfl
    refine ⟨_, _, applied, ⟨record.ofTable, ?_, record.chips, sound⟩, grows⟩
    change ∃ searched : Medium, (if said = .nothing then s.contentType else said) = _
    split
    · exact ⟨medium, named⟩
    next something =>
      obtain ⟨other, _, ⟨nothing, _⟩ | named⟩ := record.chips.exists_searched medium
      · exact absurd nothing something
      · exact ⟨other, named⟩

/-- Nothing fails but a change to a content type that is none. -/
theorem exists_step (record : s.IsOfRecord) {op : SessionOp}
    (other : ∀ value, op ≠ .setContentType value) : ∃ next, s.step op = .ok next := by
  cases op with
  | parse query => exact ⟨_, rfl⟩
  | remove id => exact ⟨_, rfl⟩
  | clear => exact ⟨_, rfl⟩
  | setContentType value => exact absurd rfl (other value)
  | buildPatch =>
      obtain ⟨medium, _, building⟩ := record.exists_buildPatch
      exact ⟨s, by rw [step, building]; rfl⟩
  | apply =>
      obtain ⟨patch, next, applied, _⟩ := record.exists_apply
      exact ⟨next, by rw [step, applied]; rfl⟩
  | reset => exact ⟨_, rfl⟩

/-- The step: fragments and filters stay of record. -/
theorem step (record : s.IsOfRecord) {op : SessionOp} (stepped : s.step op = .ok next) :
    next.IsOfRecord := by
  cases op with
  | parse query =>
      cases stepped
      exact ⟨record.ofTable, record.medium, record.ofRecord_fragments _ _, record.filters⟩
  | remove id =>
      cases stepped
      exact ⟨record.ofTable, record.medium, record.chips.sublist List.filter_sublist,
        record.filters⟩
  | clear =>
      cases stepped
      exact ⟨record.ofTable, record.medium, .nil, record.filters⟩
  | setContentType value =>
      obtain ⟨medium, _, rfl⟩ := exists_of_map_ok stepped
      exact ⟨record.ofTable, ⟨medium, rfl⟩, record.chips, record.filters⟩
  | buildPatch =>
      obtain ⟨_, _, rfl⟩ := exists_of_map_ok stepped
      exact record
  | apply =>
      obtain ⟨patch, after, applied, ofRecord, _⟩ := record.exists_apply
      rw [Session.step, applied] at stepped
      cases stepped
      exact ofRecord
  | reset =>
      cases stepped
      exact ⟨record.ofTable, record.medium, record.chips, Filters.isSound_nil⟩

/-- The step: unless filters are emptied, their lists only grow. -/
theorem grows_step (record : s.IsOfRecord) {op : SessionOp} (kept : op ≠ .reset)
    (stepped : s.step op = .ok next) : Filters.Grows s.filters next.filters := by
  cases op with
  | parse query | remove id | clear =>
      cases stepped
      exact Filters.Grows.refl s.filters
  | setContentType value =>
      obtain ⟨medium, _, rfl⟩ := exists_of_map_ok stepped
      exact Filters.Grows.refl s.filters
  | buildPatch =>
      obtain ⟨_, _, rfl⟩ := exists_of_map_ok stepped
      exact Filters.Grows.refl s.filters
  | apply =>
      obtain ⟨patch, after, applied, _, grows⟩ := record.exists_apply
      rw [Session.step, applied] at stepped
      cases stepped
      exact grows
  | reset => exact absurd rfl kept

/-- The run: fragments and filters stay of record. -/
theorem run (record : s.IsOfRecord) (ops : List SessionOp) : (s.run ops).IsOfRecord :=
  run_preserves (fun _ _ _ _ record stepped => record.step stepped) record

/-- The run: between two times at which filters are emptied, their lists only grow. -/
theorem grows_run (record : s.IsOfRecord) {ops : List SessionOp} (kept : SessionOp.reset ∉ ops) :
    Filters.Grows s.filters (s.run ops).filters := by
  have both : (s.run ops).IsOfRecord ∧ Filters.Grows s.filters (s.run ops).filters := by
    apply run_preserves (P := fun t => t.IsOfRecord ∧ Filters.Grows s.filters t.filters)
    · rintro op mem before after ⟨ofRecord, grows⟩ stepped
      have apart : op ≠ .reset := fun same => kept (same ▸ mem)
      exact ⟨ofRecord.step stepped, grows.trans (ofRecord.grows_step apart stepped)⟩
    · exact ⟨record, Filters.Grows.refl s.filters⟩
  exact both.2

end IsOfRecord

/-- Whatever is asked of a session with the rules of record that starts without filters, the next
operation succeeds unless it asks for a content type that is none, the filters have the keys of a
patch and hold what these allow, and as long as they are not emptied their lists only grow. -/
theorem run_filters {contentType : Json}
    (started : Session.start Table.default contentType [] = .ok s) (ops : List SessionOp) :
    (∀ op, (∀ value, op ≠ .setContentType value) → ∃ next, (s.run ops).step op = .ok next) ∧
      (s.run ops).filters.IsSound ∧
      ∀ more, SessionOp.reset ∉ more →
        Filters.Grows (s.run ops).filters (s.run (ops ++ more)).filters := by
  have record := (isOfRecord_start started).run ops
  refine ⟨fun op other => record.exists_step other, record.filters, ?_⟩
  intro more kept
  rw [run_append]
  exact record.grows_run kept

/-- Genres that are applied one after the other. -/
theorem run_filters_genres : ∃ s, Session.start Table.default (.str "movie") [] = .ok s ∧
    (∀ op, (∀ value, op ≠ .setContentType value) →
      ∃ next, (s.run [.parse (.str "comedy"), .apply]).step op = .ok next) ∧
    (s.run [.parse (.str "comedy"), .apply]).filters.IsSound ∧
    ∀ more, SessionOp.reset ∉ more →
      Filters.Grows (s.run [.parse (.str "comedy"), .apply]).filters
        (s.run ([.parse (.str "comedy"), .apply] ++ more)).filters := by
  have started : Session.start Table.default (.str "movie") [] = .ok _ := rfl
  exact ⟨_, started, run_filters started _⟩

end Session

end FilmQuery
