/-
# Plain tables obey the laws

The plain library does what a table library documents (`plainTables_laws`), so the laws can be met.
Every table that its calls make of objects is just the rows (`rows_of_isTable`), and so each law is
a matter of lists.
-/
import FilmQuery.PlainTables
import FilmQuery.Proofs.Tables.Scores
import Mathlib.Data.Nat.Cast.Defs
import Mathlib.Algebra.Ring.Rat

namespace FilmQuery

open Number (Binary64)
open PlainTables

namespace PlainTables

variable {rows : List Json.Fields} {keys : List String} {key : String}

theorem map_fieldsOf (rows : List Json.Fields) : (rows.map Json.obj).map Json.fieldsOf = rows := by
  rw [List.map_map]
  exact List.map_id rows

theorem hasColumn_iff : hasColumn rows key = true ↔ ¬ IsMissing rows key := by
  simp [hasColumn, IsMissing, Option.isSome_iff_ne_none]

/-- A column in front of others is selected with them. -/
theorem beside_restrict (rows : List Json.Fields) (key : String) (keys : List String) :
    beside (key, (cellsOf rows key).map (·.getD (.real .nan))) (rows.map (Record.restrict keys)) =
      rows.map (Record.restrict (key :: keys)) := by
  induction rows with
  | nil => rfl
  | cons row rows ih => exact congrArg (_ :: ·) ih

theorem series_eq_ok {column : String × List Json} (made : series rows key = .ok column) :
    column = (key, (cellsOf rows key).map (·.getD (.real .nan))) := by
  rw [series] at made
  split at made
  · exact (Except.ok.inj made).symm
  · cases made

theorem select_eq_ok {part : List Json.Fields} (made : select rows keys = .ok part) :
    part = rows.map (Record.restrict keys) := by
  rw [select] at made
  split at made
  · exact (Except.ok.inj made).symm
  · cases made

/-- A table that is made of objects is their rows. -/
theorem rows_of_isTable {frame : plainTables.Frame} (table : plainTables.IsTable frame rows) :
    frame = rows := by
  induction table with
  | ofObjects made => exact (Except.ok.inj made).symm.trans (map_fieldsOf _)
  | ofSelect _ _ made ih => exact ih ▸ select_eq_ok made
  | @ofBeside rows frame part joined column key keys _ _ first others made ih =>
      have joins : beside column part = joined := Except.ok.inj made
      rw [← joins, series_eq_ok first, select_eq_ok others, ih]
      exact beside_restrict rows key keys
  | @ofBelow rows frame kept key bound _ made ih =>
      have keeps : List.filter (Record.isBelow key bound) frame = kept := Except.ok.inj made
      rw [← keeps, ih]

/-- Selecting columns that are there succeeds. -/
theorem select_of_there (there : ∀ key ∈ keys, ¬ IsMissing rows key) :
    select rows keys = .ok (rows.map (Record.restrict keys)) := by
  rw [select, if_pos]
  exact List.all_eq_true.mpr fun key mem => hasColumn_iff.mpr (there key mem)

/-- Selecting a column that is not there fails. -/
theorem select_of_isMissing (asked : key ∈ keys) (missing : IsMissing rows key) :
    select rows keys = .error .missingKey := by
  rw [select, if_neg]
  intro all
  exact hasColumn_iff.mp (List.all_eq_true.mp all key asked) missing

/-- A value without parts makes a row without cells. -/
theorem fieldsOf_of_isLeaf {value : Json} (leaf : value.isLeaf = true) : value.fieldsOf = [] := by
  cases value with
  | obj fields => cases fields with
    | nil => rfl
    | cons field rest => cases leaf
  | _ => rfl

theorem mapM_real? (xs : List Binary64) : (xs.map Json.real).mapM real? = some xs := by
  induction xs with
  | nil => rfl
  | cons x xs ih => rw [List.map_cons, List.mapM_cons, ih]; rfl

theorem toRat?_zero : Binary64.zero.toRat? = some 0 := by decide +kernel

theorem toRat?_one : Binary64.one.toRat? = some 1 := by decide +kernel

/-- Ones and zeros add up to the number of the ones. -/
theorem wholeSum?_bits {xs : List Binary64} (bits : ∀ x ∈ xs, x = .zero ∨ x = .one) :
    wholeSum? xs = some (xs.count .one : Int) := by
  have sum : ∃ qs, xs.mapM Binary64.toRat? = some qs ∧
      qs.foldr (· + ·) 0 = (xs.count .one : Rat) := by
    induction xs with
    | nil => exact ⟨[], rfl, rfl⟩
    | cons x xs ih =>
        obtain ⟨qs, read, total⟩ := ih fun y mem => bits y (.tail _ mem)
        rcases bits x (.head _) with rfl | rfl
        · refine ⟨0 :: qs, ?_, ?_⟩
          · rw [List.mapM_cons, read, toRat?_zero]; rfl
          · rw [List.foldr_cons, total, List.count_cons_of_ne (by decide +kernel), Rat.zero_add]
        · refine ⟨1 :: qs, ?_, ?_⟩
          · rw [List.mapM_cons, read, toRat?_one]; rfl
          · rw [List.foldr_cons, total, List.count_cons_self, add_comm, Nat.cast_succ]
  obtain ⟨qs, read, total⟩ := sum
  rw [wholeSum?, read, Option.map_some]
  dsimp only
  rw [total, Rat.num_natCast, Rat.den_natCast, Nat.cast_one, Int.tdiv_one]

end PlainTables

/-- The plain library does what a table library documents. -/
theorem plainTables_laws : plainTables.Laws where
  frame_objects _ := ⟨_, rfl⟩
  frame_leaves {values} _ leaves _ := by
    refine ⟨_, rfl, fun keys asked => ?_⟩
    obtain ⟨key, mem⟩ := List.exists_mem_of_ne_nil keys asked
    refine select_of_isMissing mem ?_
    rw [IsMissing, cellsOf, List.map_map, List.forall_mem_map]
    intro value inValues
    rw [Function.comp_apply, fieldsOf_of_isLeaf (leaves value inValues)]
    rfl
  size table := congrArg List.length (rows_of_isTable table)
  series {frame rows key} table keeps := by
    rw [rows_of_isTable table]
    exact ⟨_, if_pos (hasColumn_iff.mpr keeps.not_isMissing), rfl⟩
  select table there := by
    rw [rows_of_isTable table]
    exact ⟨_, select_of_there there⟩
  select_missing {frame rows keys key} made asked missing := by
    rw [rows_of_isTable (.ofObjects made)]
    exact select_of_isMissing asked missing
  beside _ _ _ := ⟨_, rfl⟩
  below _ _ _ _ := ⟨_, rfl⟩
  records table _ _ _ := rows_of_isTable table
  total {column xs} cells bits _ := by
    have sum : column.2.mapM real? >>= wholeSum? = some (xs.count .one : Int) := by
      rw [show column.2 = xs.map .real from cells, mapM_real?]
      exact wholeSum?_bits bits
    simp only [plainTables, sum]
  mean {column xs} cells _ := by
    refine ⟨meanOf xs, ?_⟩
    simp only [plainTables, show column.2 = xs.map .real from cells, mapM_real?]
  means _ _ _ _ := ⟨_, rfl⟩
  lines _ _ _ _ := ⟨_, rfl⟩
  sheet {frame rows keys} table filled uniform _ := by
    obtain ⟨row, rest, rfl⟩ := List.exists_cons_of_ne_nil filled
    rw [rows_of_isTable table, ← uniform row (.head _)]
    rfl
  bars {counts} _ := by
    refine congrArg Except.ok ?_
    rw [List.map_map]
    exact List.map_id counts

end FilmQuery
