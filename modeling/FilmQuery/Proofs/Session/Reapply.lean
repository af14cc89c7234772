/-
# Applying a patch again

With the rules of record a patch that was applied can be applied again, and nothing changes by it
(`Session.apply_again`).  This holds for any filters that a session starts with.

Applying may change what is searched for, and a year counts for the dates of what is searched for.
But the fragments that are left are of record, whatever was asked of the session
(`Session.ofRecord_run`), so what they search for is named in front of every year.
-/
import FilmQuery.Proofs.Patch.Settled
import FilmQuery.Proofs.Session.History
import FilmQuery.Proofs.Session.Record

namespace FilmQuery

namespace Session

variable {s next : Session} {patch : Patch}

/-- The fragments of a session with the rules of record are of record. -/
theorem ofRecord_run (ofTable : s.table = Table.default) (record : OfRecord s.chips)
    (ops : List SessionOp) : (s.run ops).table = Table.default ∧ OfRecord (s.run ops).chips := by
  induction ops using List.reverseRecOn with
  | nil => exact ⟨ofTable, record⟩
  | append_singleton ops op ih =>
      obtain ⟨ofTable, record⟩ := ih
      rw [run_concat]
      cases reads : op.query? with
      | none =>
          have goesOn := (s.run ops).advance_other reads
          refine ⟨goesOn.table.trans ofTable, ?_⟩
          by_cases clears : op = .clear
          · rw [(goesOn.cleared clears).1]
            exact .nil
          · rw [(goesOn.kept clears).2]
            exact record.sublist List.filter_sublist
      | some query =>
          cases op with
          | parse value =>
              refine ⟨ofTable, ?_⟩
              change OfRecord ((s.run ops).table.fragments _ _)
              rw [ofTable]
              exact .fragments _ _
          | _ => cases reads

/-- What applying does: the patch is built, and unless it sets nothing it is merged into the filters
and its content type is adopted. -/
theorem exists_changes_of_apply (applied : s.apply = .ok (patch, next)) :
    s.buildPatch = .ok patch ∧ ∃ changes, patch.filters = .ok changes ∧
      (next = s ∨ ∃ filters, s.filters.merge changes = .ok filters ∧
        next = { s with
          filters
          contentType := if patch.contentType = .nothing then s.contentType
            else patch.contentType }) := by
  obtain ⟨built, building, rest⟩ := exists_of_bind applied
  obtain ⟨changes, sets, rest⟩ := exists_of_bind rest
  split at rest
  · cases rest
    exact ⟨building, changes, sets, .inl rfl⟩
  · obtain ⟨filters, merged, rest⟩ := exists_of_bind rest
    cases rest
    exact ⟨building, changes, sets, .inr ⟨filters, merged, rfl⟩⟩

/-- A session that holds what its patch sets and searches for what its patch names is left as it is
by applying. -/
theorem apply_of_holds {changes : Filters} (building : s.buildPatch = .ok patch)
    (sets : patch.filters = .ok changes) (holds : ∀ entry ∈ changes, s.filters.Holds entry)
    (named : patch.contentType = .nothing ∨ patch.contentType = s.contentType) :
    s.apply = .ok (patch, s) := by
  have merged := Filters.merge_of_holds holds
  have same : (if patch.contentType = .nothing then s.contentType else patch.contentType) =
      s.contentType := by
    split
    next => rfl
    next something => exact named.resolve_left something
  simp only [apply, building, sets, merged, same, bind, Except.bind, pure, Except.pure, ite_self]

/-- Whatever was asked of a session with the rules of record, and whatever filters it started with,
applying twice is applying once: if it succeeds, it succeeds again with the same patch and leaves
the session as it is. -/
theorem apply_again {contentType : Json} {fields : Json.Fields}
    (started : Session.start Table.default contentType fields = .ok s) (ops : List SessionOp)
    (applied : (s.run ops).apply = .ok (patch, next)) : next.apply = .ok (patch, next) := by
  have record : OfRecord (s.run ops).chips := by
    obtain ⟨_, _, rfl⟩ := exists_of_map_ok started
    exact (ofRecord_run rfl .nil ops).2
  generalize s.run ops = t at record applied
  obtain ⟨building, changes, sets, unchanged | ⟨filters, merged, adopted⟩⟩ :=
    exists_changes_of_apply applied
  · rwa [unchanged] at applied ⊢
  · obtain ⟨search, searches⟩ : t.NamesMedium := by
      by_contra unnamed
      obtain ⟨shown, refused⟩ := buildPatch_unknown_iff.mpr unnamed
      rw [building] at refused
      cases refused
    rw [buildPatch_eq searches, record.ofFragments_eq_digest search] at building
    cases building
    obtain ⟨medium, searched, named⟩ := record.exists_searched search
    have searchesNext : next.contentType = .text medium.name := by
      rw [adopted]
      rcases named with ⟨nothing, rfl⟩ | named
      · exact (if_pos nothing).trans searches
      · exact (if_neg (by simp [named])).trans named
    have buildingNext : next.buildPatch = .ok (Patch.digest search t.chips) := by
      have chips : next.chips = t.chips := by rw [adopted]
      rw [buildPatch_eq searchesNext, chips, record.ofFragments_eq_digest,
        record.digest_searched searched]
    apply apply_of_holds buildingNext sets
    · rw [adopted]
      exact Filters.holds_merge (Patch.nodup_keys_filters sets)
        (record.isEntry_of_filters search sets) merged
    · rw [searchesNext]
      exact named.imp And.left id

/-- A year is applied to films, then a genre and another year to shows. -/
theorem apply_again_shows : ∃ s, Session.start Table.default (.str "movie") [] = .ok s ∧
    ∃ patch next,
      (s.run [.parse (.str "since 2015"), .apply, .parse (.str "horror series since 2018")]).apply =
          .ok (patch, next) ∧
        next.apply = .ok (patch, next) := by
  have started : Session.start Table.default (.str "movie") [] = .ok _ := rfl
  obtain ⟨patch, next, applied, _⟩ := ((isOfRecord_start started).run _).exists_apply
  exact ⟨_, started, patch, next, applied, apply_again started _ applied⟩

end Session

end FilmQuery
