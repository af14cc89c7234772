/-
# Merging a patch again

Filters that hold what a patch sets are left as they are by the patch (`Filters.merge_of_holds`),
and filters that have just taken a patch hold what it sets (`Filters.holds_merge`).  The first is
about any filters.  The second needs that the patch sets no key twice, since a later setting would
replace an earlier one, and that the items of its lists equal themselves, since no item that does
not is ever found again; a patch of record has both.

The patch itself stays the same when its content type is adopted: what was searched for at its years
is what is searched for from then on (`OfRecord.digest_searched`).
-/
import FilmQuery.Proofs.Patch.Settings

namespace FilmQuery

section Items

variable {α : Type} {same : α → α → Bool} {old new : List α}

theorem addNew_eq_self (present : ∀ x ∈ new, old.any (same · x) = true) :
    addNew same old new = old := by
  induction new with
  | nil => rfl
  | cons x new ih =>
      rw [addNew, List.foldl_cons, if_pos (present x List.mem_cons_self)]
      exact ih fun y mem => present y (List.mem_cons_of_mem x mem)

/-- Items that equal themselves are there once they were added. -/
theorem any_addNew (reflexive : ∀ x ∈ new, same x x = true) :
    ∀ x ∈ new, (addNew same old new).any (same · x) = true := by
  induction new generalizing old with
  | nil => nofun
  | cons y new ih =>
      rw [addNew, List.foldl_cons]
      have later := fun x mem => reflexive x (List.mem_cons_of_mem y mem)
      intro x mem
      rcases List.mem_cons.mp mem with rfl | inNew
      · -- It is there before the others are added, and they are added behind it.
        have first : (if old.any (same · x) then old else old ++ [x]).any (same · x) = true := by
          split
          next present => exact present
          next => simp [reflexive x List.mem_cons_self]
        generalize (if old.any (same · x) then old else old ++ [x]) = now at first ⊢
        obtain ⟨item, there, equal⟩ := List.any_eq_true.mp first
        have kept : now <+: addNew same now new := addNew_prefix same now new
        exact List.any_eq_true.mpr ⟨item, kept.subset there, equal⟩
      · exact ih later x inNew

end Items

namespace Filters

variable {filters next : Filters} {key : String} {setting : Setting} {entry : String × Setting}

/-- Filters hold an entry if its value is set, or all items of its list are in the list that is
set. -/
def Holds (filters : Filters) (entry : String × Setting) : Prop :=
  match entry.2 with
  | .value v => Record.get? filters entry.1 = some (.value v)
  | .list items => ∃ old, Record.get? filters entry.1 = some (.list old) ∧
      ∀ x ∈ items, old.any (Value.same · x) = true

theorem exists_items_of_change {items : List Value}
    (changed : filters.change key (.list items) = .ok next) :
    ∃ old, next = Record.set key (.list (addNew Value.same old items)) filters := by
  rw [change] at changed
  split at changed
  next old present => exact ⟨old, (Except.ok.inj changed).symm⟩
  next => cases changed

/-- A change sets one key. -/
theorem exists_set_of_change (changed : filters.change key setting = .ok next) :
    ∃ after, next = Record.set key after filters := by
  cases setting with
  | value v =>
      cases changed
      exact ⟨_, rfl⟩
  | list items =>
      obtain ⟨old, set⟩ := exists_items_of_change changed
      exact ⟨_, set⟩

/-- What is set one after the other is set first, and then the others. -/
theorem exists_of_merge_cons {rest : Filters}
    (merged : filters.merge ((key, setting) :: rest) = .ok next) :
    ∃ middle : Filters, filters.change key setting = .ok middle ∧ middle.merge rest = .ok next := by
  rw [merge] at merged
  cases changed : filters.change key setting with
  | error e =>
      rw [changed] at merged
      cases merged
  | ok middle =>
      rw [changed] at merged
      exact ⟨middle, rfl, merged⟩

theorem Holds.change (holds : filters.Holds entry) (apart : entry.1 ≠ key)
    (changed : filters.change key setting = .ok next) : next.Holds entry := by
  obtain ⟨after, rfl⟩ := exists_set_of_change changed
  have kept : Record.get? (Record.set key after filters) entry.1 = Record.get? filters entry.1 := by
    rw [Record.get?_set, if_neg apart]
  unfold Holds at holds ⊢
  rwa [kept]

theorem Holds.merge {changes : Filters} (holds : filters.Holds entry)
    (apart : entry.1 ∉ changes.map Prod.fst) (merged : filters.merge changes = .ok next) :
    next.Holds entry := by
  induction changes generalizing filters with
  | nil =>
      cases merged
      exact holds
  | cons change rest ih =>
      obtain ⟨key, setting⟩ := change
      rw [List.map_cons, List.mem_cons, not_or] at apart
      obtain ⟨middle, changed, merged⟩ := exists_of_merge_cons merged
      exact ih (holds.change apart.1 changed) apart.2 merged

/-- The items of a list that is set equal themselves. -/
theorem IsEntry.same_self {items : List Value} (isEntry : IsEntry (key, .list items)) :
    ∀ x ∈ items, Value.same x x = true := by
  obtain ⟨field, _, allows⟩ := isEntry
  obtain ⟨ids, listed, _⟩ := Field.lists_of_allows allows
  cases listed
  intro x mem
  obtain ⟨id, _, rfl⟩ := List.mem_map.mp mem
  rw [same_number, beq_self_eq_true]

/-- The step: what is set is held afterwards. -/
theorem holds_change (isEntry : IsEntry (key, setting))
    (changed : filters.change key setting = .ok next) : next.Holds (key, setting) := by
  cases setting with
  | value v =>
      cases changed
      exact Record.get?_set.trans (if_pos rfl)
  | list items =>
      obtain ⟨old, rfl⟩ := exists_items_of_change changed
      exact ⟨_, Record.get?_set.trans (if_pos rfl), any_addNew isEntry.same_self⟩

/-- The run: whatever a patch sets is held afterwards. -/
theorem holds_merge {changes : Filters} (nodup : (changes.map Prod.fst).Nodup)
    (entries : ∀ entry ∈ changes, IsEntry entry) (merged : filters.merge changes = .ok next) :
    ∀ entry ∈ changes, next.Holds entry := by
  induction changes generalizing filters with
  | nil => nofun
  | cons change rest ih =>
      obtain ⟨key, setting⟩ := change
      rw [List.map_cons, List.nodup_cons] at nodup
      obtain ⟨middle, changed, merged⟩ := exists_of_merge_cons merged
      intro entry mem
      rcases List.mem_cons.mp mem with rfl | later
      · exact (holds_change (entries _ List.mem_cons_self) changed).merge nodup.1 merged
      · exact ih nodup.2 (fun entry mem => entries entry (List.mem_cons_of_mem _ mem)) merged
          entry later

/-- Setting what is held changes nothing. -/
theorem change_of_holds (holds : filters.Holds (key, setting)) :
    filters.change key setting = .ok filters := by
  cases setting with
  | value v => rw [change, Record.set_eq_self holds]
  | list items =>
      obtain ⟨old, found, present⟩ := holds
      rw [change, items?_setting_of_get? found]
      simp only [addNew_eq_self present, Record.set_eq_self found]

/-- Filters that hold what a patch sets are left as they are. -/
theorem merge_of_holds {changes : Filters} (holds : ∀ entry ∈ changes, filters.Holds entry) :
    filters.merge changes = .ok filters := by
  induction changes with
  | nil => rfl
  | cons entry rest ih =>
      rw [merge, change_of_holds (holds entry List.mem_cons_self)]
      exact ih fun entry mem => holds entry (List.mem_cons_of_mem _ mem)

end Filters

namespace Patch

theorem keys_single_sublist (key : String) (value : Value) :
    ((single key value).map Prod.fst).Sublist [key] := by
  unfold single
  split
  · exact List.nil_sublist [key]
  · exact List.Sublist.refl [key]
  · exact List.Sublist.refl [key]

theorem keys_several_sublist (key : String) (items : List Value) :
    ((several key items).map Prod.fst).Sublist [key] := by
  unfold several
  split
  · exact List.nil_sublist [key]
  · exact List.Sublist.refl [key]

/-- A patch sets no key twice. -/
theorem nodup_keys_filters {patch : Patch} {changes : Filters}
    (sets : patch.filters = .ok changes) : (changes.map Prod.fst).Nodup := by
  unfold filters at sets
  split at sets
  · cases sets
    have keys : ["content_type", "primary_release_date", "first_air_date", "vote_average",
        "with_watch_providers", "with_genres", "without_genres", "watch_region"].Nodup := by
      decide
    refine keys.sublist ?_
    simp only [List.map_append]
    exact (((((((keys_single_sublist _ _).append (keys_single_sublist _ _)).append
      (keys_single_sublist _ _)).append (keys_single_sublist _ _)).append
      (keys_several_sublist _ _)).append (keys_several_sublist _ _)).append
      (keys_several_sublist _ _)).append (keys_single_sublist _ _)
  · cases sets

end Patch

/-- Where a search ends up, there it stays when it starts from there. -/
theorem searchedName_searched {search medium : Medium} {chips : List Fragment}
    (searched : searchedName search chips = medium.name) :
    searchedName medium chips = medium.name := by
  unfold searchedName at searched ⊢
  split
  next name last =>
    rw [last] at searched
    split
    next => rfl
    next nonempty => simpa only [if_neg nonempty] using searched
  next => rfl

/-- The patch of fragments of record stays the same in a search for what they search for in the
end. -/
theorem OfRecord.digest_searched {chips : List Fragment} (record : OfRecord chips)
    {search medium : Medium} (searched : searchedName search chips = medium.name) :
    Patch.digest medium chips = Patch.digest search chips := by
  have dates (other : Medium) :
      (Patch.digest medium chips).dates other = (Patch.digest search chips).dates other := by
    rw [record.dates_digest_eq searched, record.dates_digest_eq (searchedName_searched searched)]
  -- Nothing but the dates depends on what is searched for.
  have movie := dates .movie
  have tv := dates .tv
  change YearRange.together _ = YearRange.together _ at movie tv
  simp only [Patch.digest, movie, tv]

end FilmQuery
