/-
# Values with sorted keys

Sorting the keys of a value puts the fields of every object in the order of their keys
(`isOrdered_sortKeys`) and changes nothing else: the value can be read as before
(`isReadable_sortKeys`), sorting it again is in vain (`sortKeys_sortKeys`), and values that are the
same once they are sorted are equal (`same_of_sortKeys`).  Each is shown for a value in parts from
what holds of the parts (`inParts`).
-/
import FilmQuery.Proofs.Json.RoundTrip

namespace FilmQuery.Json

variable {deepest : ℕ} {items : List Json} {fields : List (String × Json)} {value : Json}

section Sorting

theorem sortItems_eq (items : List Json) : sortItems items = items.map sortKeys := by
  induction items with
  | nil => rfl
  | cons item items ih => rw [sortItems, ih, List.map_cons]

theorem sortFields_eq (fields : List (String × Json)) :
    sortFields fields = fields.map fun field => (field.1, sortKeys field.2) := by
  induction fields with
  | nil => rfl
  | cons field fields ih => rw [sortFields, ih, List.map_cons]

theorem sortKeys_leaf (leaf : value.isLeaf = true) : sortKeys value = value := by
  cases value <;> first | rfl | cases leaf

theorem isLeaf_sortKeys (value : Json) : (sortKeys value).isLeaf = value.isLeaf := by
  cases value <;> rfl

/-- The fields of an object once it is sorted. -/
theorem mem_sortedFields {field : String × Json} :
    field ∈ (sortFields fields).mergeSort (fun a b => decide (a.1 ≤ b.1)) ↔
      ∃ own ∈ fields, (own.1, sortKeys own.2) = field := by
  rw [List.mem_mergeSort, sortFields_eq, List.mem_map]

/-- The keys are sorted, not changed. -/
theorem keys_sortedFields (fields : List (String × Json)) :
    (((sortFields fields).mergeSort fun a b => decide (a.1 ≤ b.1)).map Prod.fst).Perm
      (fields.map Prod.fst) := by
  have keys : (sortFields fields).map Prod.fst = fields.map Prod.fst := by
    rw [sortFields_eq, List.map_map]
    rfl
  exact keys ▸ (List.mergeSort_perm _ _).map Prod.fst

end Sorting

section Order

mutual

/-- Whether the fields of every object in a value stand in the order of their keys, none of which is
there twice. -/
def IsOrdered : Json → Prop
  | .arr items => AreOrdered items
  | .obj fields => fields.Pairwise (fun a b => a.1 < b.1) ∧ HoldOrdered fields
  | _ => True

/-- Whether all items of a list are in order. -/
def AreOrdered : List Json → Prop
  | [] => True
  | item :: rest => IsOrdered item ∧ AreOrdered rest

/-- Whether the values of all fields are in order. -/
def HoldOrdered : List (String × Json) → Prop
  | [] => True
  | (_, value) :: rest => IsOrdered value ∧ HoldOrdered rest

end

theorem areOrdered_iff : AreOrdered items ↔ ∀ item ∈ items, IsOrdered item := by
  induction items with
  | nil => simp [AreOrdered]
  | cons item items ih => rw [AreOrdered, ih, List.forall_mem_cons]

theorem holdOrdered_iff : HoldOrdered fields ↔ ∀ field ∈ fields, IsOrdered field.2 := by
  induction fields with
  | nil => simp [HoldOrdered]
  | cons field fields ih => rw [HoldOrdered, ih, List.forall_mem_cons]

theorem isOrdered_leaf (leaf : value.isLeaf = true) : IsOrdered value := by
  cases value with
  | null | bool _ | int _ | real _ | str _ => trivial
  | arr _ | obj _ => cases leaf

/-- Fields with distinct keys are sorted into a strict order. -/
theorem pairwise_sortedFields (nodup : (fields.map Prod.fst).Nodup) :
    ((sortFields fields).mergeSort fun a b => decide (a.1 ≤ b.1)).Pairwise
      fun a b => a.1 < b.1 := by
  have sorted : ((sortFields fields).mergeSort fun a b => decide (a.1 ≤ b.1)).Pairwise
      fun a b => decide (a.1 ≤ b.1) = true := by
    refine List.pairwise_mergeSort (fun a b c first second => ?_) (fun a b => ?_) _
    · rw [decide_eq_true_eq] at first second ⊢
      exact String.le_trans first second
    · rw [Bool.or_eq_true, decide_eq_true_eq, decide_eq_true_eq]
      exact String.le_total a.1 b.1
  have distinct := (keys_sortedFields fields).nodup_iff.mpr nodup
  rw [List.Nodup, List.pairwise_map] at distinct
  exact sorted.imp₂ (fun a b le ne => Std.lt_of_le_of_ne (of_decide_eq_true le) ne) distinct

/-- A value is in order once its keys are sorted. -/
theorem isOrdered_sortKeys (value : Json) (readable : IsReadable deepest value) :
    IsOrdered (sortKeys value) := by
  induction value using inParts generalizing deepest with
  | leaf value leaf =>
      rw [sortKeys_leaf leaf]
      exact isOrdered_leaf leaf
  | arr items ih =>
      rw [isReadable_arr_iff] at readable
      rw [sortKeys, sortItems_eq, IsOrdered, areOrdered_iff, List.forall_mem_map]
      exact fun item mem => ih item mem (readable.2 item mem)
  | obj fields ih =>
      rw [isReadable_obj_iff] at readable
      rw [sortKeys, IsOrdered, holdOrdered_iff]
      refine ⟨pairwise_sortedFields readable.2.1, fun field mem => ?_⟩
      obtain ⟨own, there, rfl⟩ := mem_sortedFields.mp mem
      exact ih own there (readable.2.2 own there)

/-- A value in order stays as it is. -/
theorem sortKeys_of_isOrdered (value : Json) (ordered : IsOrdered value) :
    sortKeys value = value := by
  induction value using inParts with
  | leaf value leaf => exact sortKeys_leaf leaf
  | arr items ih =>
      rw [IsOrdered, areOrdered_iff] at ordered
      rw [sortKeys, sortItems_eq,
        List.map_congr_left fun item mem => ih item mem (ordered item mem), List.map_id']
  | obj fields ih =>
      rw [IsOrdered, holdOrdered_iff] at ordered
      have same : sortFields fields = fields := by
        rw [sortFields_eq]
        refine (List.map_congr_left fun field mem => ?_).trans (List.map_id' fields)
        rw [ih field mem (ordered.2 field mem)]
      rw [sortKeys, same, List.mergeSort_of_pairwise]
      exact ordered.1.imp fun lt => decide_eq_true (Std.le_of_lt lt)

/-- Sorting the keys again is in vain. -/
theorem sortKeys_sortKeys (readable : IsReadable deepest value) :
    sortKeys (sortKeys value) = sortKeys value :=
  sortKeys_of_isOrdered _ (isOrdered_sortKeys value readable)

end Order

/-- A value can be read with sorted keys if it can be read at all. -/
theorem isReadable_sortKeys (value : Json) (readable : IsReadable deepest value) :
    IsReadable deepest (sortKeys value) := by
  induction value using inParts generalizing deepest with
  | leaf value leaf => rwa [sortKeys_leaf leaf]
  | arr items ih =>
      rw [isReadable_arr_iff] at readable
      rw [sortKeys, sortItems_eq, isReadable_arr_iff, List.forall_mem_map]
      exact ⟨readable.1, fun item mem => ih item mem (readable.2 item mem)⟩
  | obj fields ih =>
      rw [isReadable_obj_iff] at readable
      rw [sortKeys, isReadable_obj_iff]
      refine ⟨readable.1, (keys_sortedFields fields).nodup_iff.mpr readable.2.1, ?_⟩
      intro field mem
      obtain ⟨own, there, rfl⟩ := mem_sortedFields.mp mem
      exact ih own there (readable.2.2 own there)

section Same

/-- The fields of one object are in another with equal values. -/
theorem sameFields_iff {others : List (String × Json)} :
    sameFields fields others = true ↔
      ∀ field ∈ fields,
        ∃ other, others.lookup field.1 = some other ∧ field.2.same other = true := by
  induction fields with
  | nil => simp [sameFields]
  | cons field fields ih =>
      rw [sameFields, Bool.and_eq_true, ih, List.forall_mem_cons]
      refine and_congr_left fun _ => ?_
      cases others.lookup field.1 <;> simp

theorem sameItems_iff {others : List Json} :
    sameItems items others = true ↔ List.Forall₂ (fun x y => x.same y = true) items others := by
  induction items generalizing others with
  | nil => cases others <;> simp [sameItems]
  | cons item items ih => cases others <;> simp [sameItems, ih]

/-- Values that are the same once their keys are sorted are equal, if the first equals itself. -/
theorem same_of_sortKeys (value : Json) {other : Json} (readable : IsReadable deepest value)
    (readable' : IsReadable deepest other) (self : value.same value = true)
    (sorted : sortKeys value = sortKeys other) : value.same other = true := by
  induction value using inParts generalizing other deepest with
  | leaf value leaf =>
      have leaf' : other.isLeaf = true := by rw [← isLeaf_sortKeys, ← sorted, isLeaf_sortKeys, leaf]
      rw [sortKeys_leaf leaf, sortKeys_leaf leaf'] at sorted
      rwa [← sorted]
  | arr items ih =>
      cases other with
      | arr others =>
          rw [isReadable_arr_iff] at readable readable'
          rw [same, sameItems_iff] at self ⊢
          rw [sortKeys, sortKeys, Json.arr.injEq, sortItems_eq, sortItems_eq] at sorted
          rw [← List.forall₂_eq_eq_eq, List.forall₂_map_left_iff,
            List.forall₂_map_right_iff] at sorted
          rw [List.forall₂_same] at self
          rw [List.forall₂_iff_zip] at sorted ⊢
          refine ⟨sorted.1, fun {x y} mem => ?_⟩
          obtain ⟨inItems, inOthers⟩ := List.of_mem_zip mem
          exact ih x inItems (readable.2 x inItems) (readable'.2 y inOthers) (self x inItems)
            (sorted.2 mem)
      | null | bool _ | int _ | real _ | str _ | obj _ => cases sorted
  | obj fields ih =>
      cases other with
      | obj others =>
          rw [isReadable_obj_iff] at readable readable'
          rw [same, Bool.and_eq_true, sameFields_iff] at self ⊢
          rw [sortKeys, sortKeys, Json.obj.injEq] at sorted
          have length := (keys_sortedFields fields).length_eq
          rw [sorted, (keys_sortedFields others).length_eq, List.length_map,
            List.length_map] at length
          refine ⟨beq_iff_eq.mpr length.symm, fun field mem => ?_⟩
          -- The field is there under its key, sorted, so it comes from one of the other object.
          have there := mem_sortedFields.mpr ⟨field, mem, rfl⟩
          rw [sorted, mem_sortedFields] at there
          obtain ⟨⟨key, found⟩, mem', same'⟩ := there
          obtain ⟨rfl, sortedSame⟩ := Prod.mk.inj same'
          obtain ⟨own, lookup, alone⟩ := self.2 field mem
          cases lookup.symm.trans ((Record.get?_eq_some_iff readable.2.1).mpr mem)
          exact ⟨found, (Record.get?_eq_some_iff readable'.2.1).mpr mem', ih field mem
            (readable.2.2 field mem) (readable'.2.2 _ mem') alone sortedSame.symm⟩
      | null | bool _ | int _ | real _ | str _ | arr _ => cases sorted

end Same

end FilmQuery.Json
