/-
# Tables of queries and scores

What the laws of a table library say of rows that have a query and the four scores (`HasScores`):
the columns of scores can be selected, the queries can stand in front of them, and the table that
comes of it can be set out (`TableLibrary.Laws.exists_scoreTables`,
`TableLibrary.Laws.sheet_scoreTable`).  A selected column is the one of the whole table, with
not-a-number in its gaps (`cellsOf_restrict`).
-/
import FilmQuery.Host
import FilmQuery.Proofs.Record

namespace FilmQuery

open Number (Binary64)

section Columns

variable {rows : List Json.Fields} {keys : List String} {key : String}

theorem get?_restrict (mem : key ∈ keys) (row : Json.Fields) :
    Record.get? (Record.restrict keys row) key =
      some ((Record.get? row key).getD (.real .nan)) := by
  induction keys with
  | nil => cases mem
  | cons first rest ih =>
      rw [Record.restrict, List.map_cons, Record.get?_cons]
      by_cases here : key = first
      · rw [if_pos here, here]
      · rw [if_neg here]
        exact ih ((List.mem_cons.mp mem).resolve_left here)

theorem keys_restrict (keys : List String) (row : Json.Fields) :
    (Record.restrict keys row).map Prod.fst = keys := by
  rw [Record.restrict, List.map_map]
  exact List.map_id keys

/-- A selected column has the cells of the whole one, and not-a-number in its gaps. -/
theorem cellsOf_restrict (mem : key ∈ keys) :
    cellsOf (rows.map (Record.restrict keys)) key =
      (cellsOf rows key).map fun cell => some (cell.getD (.real .nan)) := by
  rw [cellsOf, cellsOf, List.map_map, List.map_map]
  exact List.map_congr_left fun row _ => get?_restrict mem row

theorem AreTexts.restrict (texts : AreTexts (cellsOf rows key)) (mem : key ∈ keys) :
    AreTexts (cellsOf (rows.map (Record.restrict keys)) key) := by
  rw [cellsOf_restrict mem, AreTexts, List.forall_mem_map]
  intro cell inColumn
  obtain ⟨text, rfl⟩ := texts cell inColumn
  exact ⟨text, rfl⟩

theorem AreReals.restrict (reals : AreReals (cellsOf rows key)) (mem : key ∈ keys) :
    AreReals (cellsOf (rows.map (Record.restrict keys)) key) := by
  rw [cellsOf_restrict mem, AreReals, List.forall_mem_map]
  intro cell inColumn
  obtain ⟨x, rfl⟩ := reals cell inColumn
  exact ⟨x, rfl⟩

/-- The doubles of a column. -/
theorem AreReals.exists_eq (reals : AreReals (cellsOf rows key)) :
    ∃ xs : List Binary64, cellsOf rows key = xs.map fun x => some (.real x) := by
  generalize cellsOf rows key = cells at reals
  induction cells with
  | nil => exact ⟨[], rfl⟩
  | cons cell cells ih =>
      obtain ⟨⟨x, rfl⟩, others⟩ := List.forall_mem_cons.mp reals
      obtain ⟨xs, rfl⟩ := ih others
      exact ⟨x :: xs, rfl⟩

theorem cellsOf_ne_nil (filled : rows ≠ []) : cellsOf rows key ≠ [] := by
  simpa [cellsOf] using filled

/-- A column that keeps its cells has some. -/
theorem KeepsCells.not_isMissing (keeps : KeepsCells (cellsOf rows key)) :
    ¬ IsMissing rows key := by
  intro missing
  obtain ⟨filled, texts | reals | ⟨fields, there⟩⟩ := keeps
  · obtain ⟨cell, mem⟩ := List.exists_mem_of_ne_nil _ filled
    obtain ⟨text, here⟩ := texts cell mem
    cases (missing cell mem).symm.trans here
  · obtain ⟨cell, mem⟩ := List.exists_mem_of_ne_nil _ filled
    obtain ⟨x, here⟩ := reals cell mem
    cases (missing cell mem).symm.trans here
  · cases missing _ there

end Columns

/-- Whether some rows, of which there is one at least, have texts for queries and doubles for
scores. -/
structure HasScores (rows : List Json.Fields) : Prop where
  filled : rows ≠ []
  queries : AreTexts (cellsOf rows "query")
  scores : ∀ key ∈ scoreColumns, AreReals (cellsOf rows key)

namespace HasScores

variable {rows : List Json.Fields} {key : String}

theorem keeps_query (has : HasScores rows) : KeepsCells (cellsOf rows "query") :=
  ⟨cellsOf_ne_nil has.filled, .inl has.queries⟩

theorem keeps_score (has : HasScores rows) (mem : key ∈ scoreColumns) :
    KeepsCells (cellsOf rows key) :=
  ⟨cellsOf_ne_nil has.filled, .inr (.inl (has.scores key mem))⟩

/-- The columns of the table of scores are texts or doubles. -/
theorem plain (has : HasScores rows) :
    ∀ key ∈ "query" :: scoreColumns,
      AreTexts (cellsOf (rows.map (Record.restrict ("query" :: scoreColumns))) key) ∨
        AreReals (cellsOf (rows.map (Record.restrict ("query" :: scoreColumns))) key) := by
  intro key mem
  rcases List.mem_cons.mp mem with rfl | score
  · exact .inl (has.queries.restrict mem)
  · exact .inr ((has.scores key score).restrict mem)

end HasScores

namespace TableLibrary.Laws

variable {tables : TableLibrary} {rows : List Json.Fields} {frame : tables.Frame}

/-- Where rows have queries and scores, the scores can be selected and set beside the queries. -/
theorem exists_scoreTables (laws : tables.Laws) (table : tables.IsTable frame rows)
    (has : HasScores rows) :
    ∃ scores joined, tables.select frame scoreColumns = .ok scores ∧
      tables.scoreTable frame scores = .ok joined ∧
      tables.IsTable scores (rows.map (Record.restrict scoreColumns)) ∧
      tables.IsTable joined (rows.map (Record.restrict ("query" :: scoreColumns))) := by
  obtain ⟨scores, selected⟩ := laws.select table fun key mem => (has.keeps_score mem).not_isMissing
  obtain ⟨queries, column, -⟩ := laws.series table has.keeps_query
  obtain ⟨joined, made⟩ := laws.beside table column selected
  refine ⟨scores, joined, selected, ?_, .ofSelect (by decide) table selected,
    .ofBeside (by decide) table column selected made⟩
  rw [scoreTable, column]
  exact made

/-- A selected column of scores has the doubles of the whole one. -/
theorem exists_score (laws : tables.Laws) (has : HasScores rows) {scores : tables.Frame}
    (table : tables.IsTable scores (rows.map (Record.restrict scoreColumns))) {key : String}
    (mem : key ∈ scoreColumns) :
    ∃ (column : tables.Series) (xs : List Binary64), tables.series scores key = .ok column ∧
      tables.cells column = xs.map .real ∧ cellsOf rows key = xs.map fun x => some (.real x) := by
  have reals := (has.scores key mem).restrict mem
  have filled : rows.map (Record.restrict scoreColumns) ≠ [] := by simpa using has.filled
  obtain ⟨column, there, cells⟩ := laws.series table ⟨cellsOf_ne_nil filled, .inr (.inl reals)⟩
  obtain ⟨xs, same⟩ := (has.scores key mem).exists_eq
  refine ⟨column, xs, there, ?_, same⟩
  rw [cells, cellsOf_restrict mem, same, List.map_map, List.map_map]
  rfl

/-- The means of the scores can be printed. -/
theorem exists_means (laws : tables.Laws) (has : HasScores rows) {scores : tables.Frame}
    (table : tables.IsTable scores (rows.map (Record.restrict scoreColumns))) :
    ∃ means, tables.means scores = .ok means :=
  laws.means table (by simpa using has.filled)
    (List.forall_mem_map.mpr fun row _ => keys_restrict scoreColumns row)
    fun key mem => (has.scores key mem).restrict mem

/-- The queries and their scores can be printed. -/
theorem exists_lines (laws : tables.Laws) (has : HasScores rows) {joined : tables.Frame}
    (table : tables.IsTable joined (rows.map (Record.restrict ("query" :: scoreColumns)))) :
    ∃ lines, tables.lines joined = .ok lines :=
  laws.lines table (by simpa using has.filled)
    (List.forall_mem_map.mpr fun row _ => keys_restrict _ row) has.plain

/-- The cells of the table of scores: of each row the query and the scores. -/
theorem sheet_scoreTable (laws : tables.Laws) (has : HasScores rows) {joined : tables.Frame}
    (table : tables.IsTable joined (rows.map (Record.restrict ("query" :: scoreColumns)))) :
    tables.sheet joined = .ok ("query" :: scoreColumns,
      rows.map fun row => (Record.restrict ("query" :: scoreColumns) row).map Prod.snd) := by
  have sheet := laws.sheet table (by simpa using has.filled)
    (List.forall_mem_map.mpr fun row _ => keys_restrict _ row) has.plain
  rwa [List.map_map] at sheet

end TableLibrary.Laws

end FilmQuery
