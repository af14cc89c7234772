/-
# Records as maps

The entry of a name after another was set, and what setting a name does to the entries: a name that
is there keeps its place, and a new one goes to the end.  If no name is there twice, every entry is
the one of its name (`get?_eq_some_iff`).
-/
import FilmQuery.Record
import Mathlib.Data.List.Nodup

namespace FilmQuery.Record

variable {α : Type} {record : Record α} {key other : String} {value : α}

theorem get?_cons (k : String) (v : α) (rest : Record α) :
    get? ((k, v) :: rest) key = if key = k then some v else get? rest key := by
  rw [get?, List.lookup_cons]
  by_cases same : key = k
  · rw [if_pos same, beq_iff_eq.mpr same]
  · rw [if_neg same, beq_eq_false_iff_ne.mpr same]
    rfl

theorem get?_set : get? (set key value record) other =
    if other = key then some value else get? record other := by
  induction record with
  | nil => exact get?_cons key value []
  | cons entry rest ih =>
      obtain ⟨k, v⟩ := entry
      by_cases here : k = key
      · subst here
        rw [set, if_pos rfl, get?_cons, get?_cons]
        by_cases same : other = k
        · rw [if_pos same, if_pos same]
        · rw [if_neg same, if_neg same, if_neg same]
      · rw [set, if_neg here, get?_cons, get?_cons, ih]
        by_cases same : other = k
        · subst same
          rw [if_pos rfl, if_pos rfl, if_neg here]
        · rw [if_neg same, if_neg same]

theorem mem_set {entry : String × α} (mem : entry ∈ set key value record) :
    entry = (key, value) ∨ entry ∈ record := by
  induction record with
  | nil => exact .inl (List.mem_singleton.mp mem)
  | cons first rest ih =>
      unfold set at mem
      split at mem
      · rcases List.mem_cons.mp mem with rfl | mem
        · exact .inl rfl
        · exact .inr (List.mem_cons_of_mem _ mem)
      · rcases List.mem_cons.mp mem with rfl | mem
        · exact .inr List.mem_cons_self
        · exact (ih mem).imp id (List.mem_cons_of_mem _)

theorem nodup_set (nodup : (record.map Prod.fst).Nodup) :
    ((set key value record).map Prod.fst).Nodup := by
  induction record with
  | nil => simp [set]
  | cons first rest ih =>
      obtain ⟨k, v⟩ := first
      rw [List.map_cons, List.nodup_cons] at nodup
      unfold set
      split
      next here =>
        subst here
        simpa using nodup
      next apart =>
        rw [List.map_cons, List.nodup_cons]
        refine ⟨?_, ih nodup.2⟩
        intro mem
        obtain ⟨entry, inSet, same⟩ := List.mem_map.mp mem
        rcases mem_set inSet with rfl | inRest
        · exact apart same.symm
        · exact nodup.1 (List.mem_map.mpr ⟨entry, inRest, same⟩)

theorem mem_of_get? (found : get? record key = some value) : (key, value) ∈ record := by
  obtain ⟨before, behind, split, _⟩ := List.lookup_eq_some_iff.mp found
  rw [split]
  exact List.mem_append_right _ List.mem_cons_self

/-- If no key is there twice, every entry is the one of its key. -/
theorem get?_eq_some_iff (nodup : (record.map Prod.fst).Nodup) :
    get? record key = some value ↔ (key, value) ∈ record := by
  refine ⟨mem_of_get?, fun mem => ?_⟩
  induction record with
  | nil => cases mem
  | cons entry rest ih =>
      obtain ⟨k, v⟩ := entry
      rw [List.map_cons, List.nodup_cons] at nodup
      rw [get?_cons]
      rcases List.mem_cons.mp mem with same | later
      · cases same
        rw [if_pos rfl]
      · have apart : key ≠ k := fun same =>
          nodup.1 (same ▸ List.mem_map.mpr ⟨(key, value), later, rfl⟩)
        rw [if_neg apart, ih nodup.2 later]

theorem get?_eq_none (missing : key ∉ record.map Prod.fst) : get? record key = none := by
  rw [Option.eq_none_iff_forall_ne_some]
  exact fun value found => missing (List.mem_map_of_mem (mem_of_get? found))

theorem set_eq_self (found : get? record key = some value) : set key value record = record := by
  induction record with
  | nil => cases found
  | cons entry rest ih =>
      obtain ⟨k, v⟩ := entry
      rw [get?_cons] at found
      by_cases here : k = key
      · subst here
        rw [if_pos rfl] at found
        rw [set, if_pos rfl, Option.some.inj found]
      · rw [if_neg (Ne.symm here)] at found
        rw [set, if_neg here, ih found]

/-- A new name goes to the end. -/
theorem set_of_notMem (new : key ∉ record.map Prod.fst) (value : α) :
    set key value record = record ++ [(key, value)] := by
  induction record with
  | nil => rfl
  | cons entry rest ih =>
      obtain ⟨k, v⟩ := entry
      rw [List.map_cons, List.mem_cons, not_or] at new
      rw [set, if_neg (Ne.symm new.1), ih new.2]
      rfl

theorem get?_map {β : Type} (f : α → β) (record : Record α) (key : String) :
    get? (record.map fun (k, v) => (k, f v)) key = (get? record key).map f := by
  induction record with
  | nil => rfl
  | cons entry rest ih =>
      obtain ⟨k, v⟩ := entry
      rw [List.map_cons, get?_cons, get?_cons, ih]
      split <;> rfl

end FilmQuery.Record
