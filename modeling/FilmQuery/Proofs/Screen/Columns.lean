/-
# Buttons in columns

Items that are dealt to columns are read row by row, and so they are read in their order
(`rowByRow_deal`).  Buttons in columns are read like that, too (`Element.readButtons_ofButtons`).
-/
import FilmQuery.Screen.SearchPage
import Mathlib.Data.List.Basic
import Mathlib.Data.List.Induction

namespace FilmQuery

open SearchPage (deal)

section Rows

variable {α β : Type}

/-- The number of rows of some columns. -/
def rowCount (columns : List (List α)) : Nat := (columns.map List.length).foldr max 0

/-- What stands in some columns, read row by row. -/
def rowByRow (columns : List (List α)) : List α :=
  (List.range (rowCount columns)).flatMap fun row => columns.filterMap (·[row]?)

theorem length_le_rowCount {columns : List (List α)} {column : List α} (mem : column ∈ columns) :
    column.length ≤ rowCount columns := by
  induction columns with
  | nil => cases mem
  | cons first rest ih =>
      rw [rowCount, List.map_cons, List.foldr_cons]
      rcases List.mem_cons.mp mem with rfl | later
      · exact Nat.le_max_left _ _
      · exact Nat.le_trans (ih later) (Nat.le_max_right _ _)

theorem rowByRow_map (f : α → β) (columns : List (List α)) :
    rowByRow (columns.map (List.map f)) = (rowByRow columns).map f := by
  have rows : rowCount (columns.map (List.map f)) = rowCount columns := by
    simp [rowCount, Function.comp_def]
  rw [rowByRow, rowByRow, rows, List.map_flatMap]
  congr 1
  funext row
  rw [List.filterMap_map, List.map_filterMap]
  simp

/-- The numbers of the places in some rows of equal length. -/
theorem flatMap_range (rows length : Nat) :
    ((List.range rows).flatMap fun row => (List.range length).map (row * length + ·)) =
      List.range (rows * length) := by
  induction rows with
  | zero => simp
  | succ rows ih =>
      rw [List.range_succ, List.flatMap_append, ih, Nat.succ_mul, List.range_add]
      simp

theorem filterMap_getElem? {items : List α} {n : Nat} (le : items.length ≤ n) :
    (List.range n).filterMap (items[·]?) = items := by
  induction items generalizing n with
  | nil => simp
  | cons item items ih =>
      obtain ⟨m, rfl⟩ := Nat.exists_eq_succ_of_ne_zero (Nat.ne_zero_of_lt le)
      rw [List.range_succ_eq_map, List.filterMap_cons, List.filterMap_map]
      simpa [Function.comp_def] using ih (Nat.le_of_succ_le_succ le)

end Rows

section Deal

variable {α : Type} {n c : Nat}

/-- One column of dealt items. -/
def dealt (n c : Nat) (items : List α) : List α :=
  (items.zipIdx.filter fun (_, index) => index % n = c).map Prod.fst

theorem deal_eq (n : Nat) (items : List α) :
    deal n items = (List.range n).map fun c => dealt n c items := rfl

theorem deal_map {β : Type} (n : Nat) (f : α → β) (items : List α) :
    deal n (items.map f) = (deal n items).map (List.map f) := by
  rw [deal_eq, deal_eq, List.map_map]
  refine List.map_congr_left fun c _ => ?_
  rw [Function.comp_apply, dealt, dealt, List.zipIdx_map, List.filter_map, List.map_map,
    List.map_map]
  rfl

/-- In one round every column gets one item at most. -/
theorem dealt_of_length_le {items : List α} (le : items.length ≤ n) :
    dealt n c items = items[c]?.toList := by
  induction items using List.reverseRecOn with
  | nil => rfl
  | append_singleton items item ih =>
      rw [List.length_append, List.length_singleton] at le
      have last : dealt n c (items ++ [item]) =
          dealt n c items ++ if items.length = c then [item] else [] := by
        simp only [dealt, List.zipIdx_append, List.filter_append, List.map_append, Nat.zero_add,
          List.zipIdx_singleton, List.filter_singleton, Nat.mod_eq_of_lt le]
        split <;> simp_all
      rw [last, ih (Nat.le_of_succ_le le), List.getElem?_append]
      rcases Nat.lt_trichotomy c items.length with before | rfl | behind
      · simp [before, Nat.ne_of_gt before]
      · simp
      · have none : [item][c - items.length]? = none := by
          rw [List.getElem?_eq_none_iff, List.length_singleton]
          omega
        rw [if_neg (Nat.not_lt_of_gt behind), none, List.getElem?_eq_none (Nat.le_of_lt behind),
          if_neg (Nat.ne_of_lt behind)]
        rfl

/-- Each round gives one item to every column, as long as there are items. -/
theorem dealt_eq (lt : c < n) (items : List α) :
    dealt n c items = items[c]?.toList ++ dealt n c (items.drop n) := by
  by_cases short : items.length ≤ n
  · rw [dealt_of_length_le short, List.drop_of_length_le short]
    simp [dealt]
  · have le : n ≤ items.length := Nat.le_of_not_le short
    have first : dealt n c (items.take n) = items[c]?.toList := by
      rw [dealt_of_length_le (List.length_take_le n items), List.getElem?_take, if_pos lt]
    have rounds : dealt n c items = dealt n c (items.take n) ++ dealt n c (items.drop n) := by
      conv_lhs => rw [← List.take_append_drop n items]
      rw [dealt, List.zipIdx_append, List.filter_append, List.map_append, ← dealt,
        List.length_take_of_le le, Nat.zero_add, List.zipIdx_eq_map_add, List.filter_map,
        List.map_map]
      simp [dealt, Function.comp_def]
    rw [rounds, first]

/-- What stands in a row of a column was dealt in the round of the row. -/
theorem getElem?_dealt (lt : c < n) (items : List α) (row : Nat) :
    (dealt n c items)[row]? = items[row * n + c]? := by
  induction row generalizing items with
  | zero =>
      rw [dealt_eq lt, Nat.zero_mul, Nat.zero_add]
      cases here : items[c]? with
      | some item => rfl
      | none =>
          have le := List.getElem?_eq_none_iff.mp here
          rw [List.drop_of_length_le (by omega)]
          rfl
  | succ row ih =>
      rw [dealt_eq lt, Nat.succ_mul]
      cases here : items[c]? with
      | some item =>
          rw [Option.toList_some, List.singleton_append, List.getElem?_cons_succ, ih,
            List.getElem?_drop]
          congr 1
          omega
      | none =>
          have le := List.getElem?_eq_none_iff.mp here
          have beyond : items[row * n + n + c]? = none := List.getElem?_eq_none (by omega)
          rw [List.drop_of_length_le (by omega), beyond]
          rfl

/-- Dealt items are read in their order. -/
theorem rowByRow_deal (pos : 0 < n) (items : List α) : rowByRow (deal n items) = items := by
  have rows : items.length ≤ rowCount (deal n items) * n := by
    by_contra beyond
    have inFirst : dealt n 0 items ∈ deal n items :=
      List.mem_map.mpr ⟨0, List.mem_range.mpr pos, rfl⟩
    have stands := getElem?_dealt pos items (rowCount (deal n items))
    rw [Nat.add_zero, List.getElem?_eq_none (length_le_rowCount inFirst)] at stands
    exact beyond (List.getElem?_eq_none_iff.mp stands.symm)
  calc
    _ = (List.range (rowCount (deal n items))).flatMap fun row =>
          (List.range n).filterMap fun c => items[row * n + c]? := by
      rw [rowByRow]
      congr 1
      funext row
      rw [deal_eq, List.filterMap_map]
      exact List.filterMap_congr fun c mem => getElem?_dealt (List.mem_range.mp mem) items row
    _ = (List.range (rowCount (deal n items) * n)).filterMap (items[·]?) := by
      rw [← flatMap_range, List.filterMap_flatMap]
      simp only [List.filterMap_map, Function.comp_def]
    _ = items := filterMap_getElem? rows

end Deal

namespace Element

mutual

/-- The buttons of an element as they are read: columns row by row, all else from top to bottom. -/
def readButtons : Element → List Button
  | .button b => [b]
  | .columns contents => (rowByRow (readColumns contents)).flatten
  | .panel contents => (readEach contents).flatten
  | .expander _ contents => (readEach contents).flatten
  | _ => []

/-- The buttons of each of some elements. -/
def readEach : List Element → List (List Button)
  | [] => []
  | e :: rest => readButtons e :: readEach rest

/-- The buttons of each element of some columns. -/
def readColumns : List (List Element) → List (List (List Button))
  | [] => []
  | c :: rest => readEach c :: readColumns rest

end

theorem readEach_eq (elements : List Element) : readEach elements = elements.map readButtons := by
  induction elements with
  | nil => rw [readEach, List.map_nil]
  | cons e rest ih => rw [readEach, ih, List.map_cons]

theorem readColumns_eq (contents : List (List Element)) :
    readColumns contents = contents.map (List.map readButtons) := by
  induction contents with
  | nil => rw [readColumns, List.map_nil]
  | cons c rest ih => rw [readColumns, readEach_eq, ih, List.map_cons]

/-- Buttons in columns. -/
def ofButtons (columns : List (List Button)) : Element :=
  .columns (columns.map (List.map .button))

theorem readButtons_ofButtons (columns : List (List Button)) :
    readButtons (ofButtons columns) = rowByRow columns := by
  have single : List.map readButtons ∘ List.map Element.button = List.map fun b => [b] := by
    funext column
    rw [Function.comp_apply, List.map_map]
    exact List.map_congr_left fun b _ => by rw [Function.comp_apply, readButtons]
  rw [ofButtons, readButtons, readColumns_eq, List.map_map, single, rowByRow_map]
  exact List.flatMap_singleton' _

end Element

end FilmQuery
