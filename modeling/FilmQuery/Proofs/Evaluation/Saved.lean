/-
# What a run saves is read back

A run saves each row as one line of JSON, and the table page reads the lines of that file: every row
comes back as it was, and nothing else does (`EvaluationRun.loadResults_savedText`).  A row is
plain, as its query is a text and its filters are of record (`isPlain_row`).  So it comes out of a
table as it was (`records_eq`), and can be written and read.  Its line has no line end of its own,
since strings escape all control characters, and it begins and ends with a bracket (`isSolid_line`).
-/
import FilmQuery.EvaluationRun
import FilmQuery.PlainTables
import FilmQuery.Proofs.Evaluation.Records
import FilmQuery.Proofs.Patch.Printed
import FilmQuery.Proofs.Tables.Scores
import FilmQuery.Proofs.Text.Lines
import FilmQuery.Screen.TablePage

namespace FilmQuery

open Text (IsLine isBlank)

section OfRecord

variable {field : Field} {setting : Setting}

theorem Field.takes_of_allows (allows : field.Allows setting) : field.Takes setting := by
  cases field with
  | contentType =>
      obtain ⟨medium, rfl⟩ := allows
      exact ⟨_, rfl⟩
  | primaryReleaseDate | firstAirDate | voteAverage =>
      obtain ⟨range, rfl, _⟩ := allows
      exact ⟨range, rfl⟩
  | watchProviders | genres | withoutGenres =>
      obtain ⟨ids, rfl, _⟩ := allows
      exact ⟨ids, rfl⟩
  | watchRegion =>
      obtain ⟨code, _, rfl⟩ := allows
      exact ⟨code, rfl⟩

/-- A setting of record can be read from its text. -/
theorem Field.isReadable_of_allows (allows : field.Allows setting) :
    Json.IsReadable 1 setting.toJson := by
  refine Setting.isReadable_toJson (Field.takes_of_allows allows) ?_
  rintro ids rfl n mem
  obtain ⟨known, same, _, _, each⟩ := Field.lists_of_allows allows
  have numbers : ids.map Value.number = known.map .number := Setting.list.inj same
  have ids_eq : ids = known :=
    List.map_injective_iff.mpr (fun m n same => by cases same; rfl) numbers
  exact Field.isLong_of_knows (each n (ids_eq ▸ mem))

/-- The filters of fragments of record can be read from their text. -/
theorem OfRecord.isReadable_filters {chips : List Fragment} (record : OfRecord chips)
    (search : Medium) {filters : Filters}
    (sets : (Patch.digest search chips).filters = .ok filters) :
    Json.IsReadable 2 (.obj filters.toFields) := by
  have keys : filters.toFields.map Prod.fst = filters.map Prod.fst := by
    rw [Filters.toFields, List.map_map]
    rfl
  rw [Json.isReadable_obj_iff, keys]
  refine ⟨Nat.two_pos, Patch.nodup_keys_filters sets, fun entry mem => ?_⟩
  obtain ⟨own, inFilters, rfl⟩ := List.mem_map.mp mem
  obtain ⟨_, _, allows⟩ := isEntry_of_filters record search sets own inFilters
  exact Field.isReadable_of_allows allows

end OfRecord

section Rows

variable {record : Json} {number : ℕ} {row : ResultRow} {line : Option String} {room : Option ℕ}

theorem isReadable_fragmentRow (f : Fragment) : Json.IsReadable 1 (.obj (fragmentRow f)) := by
  simp [fragmentRow, Json.IsReadable, Json.HoldReadable]

/-- What is found in a query can be read from the line of its row. -/
theorem isReadable_found {contentType : Json} {number : ℕ} {query : Json} {filters : Filters}
    (sets : filtersFor contentType (Table.default.fragments number query) = .ok filters) :
    Json.IsReadable 3 (.obj [
      ("fragments", .arr ((fragmentRows (Table.default.fragments number query)).map .obj)),
      ("patch", .obj filters.toFields)]) := by
  have record := OfRecord.fragments number query
  obtain ⟨medium, _, sets⟩ := bind_eq_ok_iff.mp sets
  obtain ⟨patch, made, sets⟩ := bind_eq_ok_iff.mp sets
  rw [record.ofFragments_eq_digest medium, Except.ok.injEq] at made
  rw [← made] at sets
  have rows : Json.IsReadable 2
      (.arr ((fragmentRows (Table.default.fragments number query)).map .obj)) := by
    rw [Json.isReadable_arr_iff, List.forall_mem_map, fragmentRows, List.forall_mem_map]
    exact ⟨Nat.two_pos, fun f _ => isReadable_fragmentRow f⟩
  rw [Json.isReadable_obj_iff]
  refine ⟨by decide, by simp, ?_⟩
  rw [List.forall_mem_cons, List.forall_mem_singleton]
  exact ⟨rows, record.isReadable_filters medium sets⟩

/-- Whether a row has a text for its query and can be read from its line. -/
structure ResultRow.IsPlain (row : ResultRow) : Prop where
  query : ∃ text, row.query = .str text
  readable : Json.IsReadable 4 row.toJson

theorem ResultRow.isPlain_of_output (query : ∃ text, row.query = .str text)
    (output : Json.IsReadable 3 row.outputJson) : row.IsPlain := by
  refine ⟨query, ?_⟩
  obtain ⟨text, query⟩ := query
  simp [ResultRow.toJson, ResultRow.toFields, query, Json.IsReadable, Json.HoldReadable, output]

/-- The row of a query that is a text has this query, and can be read from its line. -/
theorem isPlain_row (text : isTextOrMissing (record.field? "query") = true)
    (result : evaluateRecord room Table.default number record = .ok (row, line)) :
    row.IsPlain := by
  cases record with
  | obj fields =>
      have query : (Record.get? fields "query").getD (.str "") =
          .str (Json.queryText (.obj fields)) := getD_of_isTextOrMissing text
      obtain ⟨expected, _, result⟩ := bind_eq_ok_iff.mp result
      rw [query] at result
      dsimp only at result
      split at result
      · cases result
        exact ResultRow.isPlain_of_output ⟨_, rfl⟩
          (by simp [ResultRow.outputJson, Json.IsReadable, Json.HoldReadable])
      · cases result
      next filters sets =>
        obtain ⟨scores, _, result⟩ := bind_eq_ok_iff.mp result
        cases result
        exact ResultRow.isPlain_of_output ⟨_, rfl⟩ (isReadable_found sets)
  | _ => cases result

/-- Where nothing ends an evaluation, there is a row for each record. -/
theorem rows_of_evaluateFrom {table : Table} {records : List Json} {number : ℕ}
    (done : (evaluateFrom room table number records).error = none) :
    (evaluateFrom room table number records).rows.length = records.length ∧
      ∀ row ∈ (evaluateFrom room table number records).rows, ∃ record ∈ records, ∃ n line,
        evaluateRecord room table n record = .ok (row, line) := by
  induction records generalizing number with
  | nil => exact ⟨rfl, List.forall_mem_nil _⟩
  | cons record records ih =>
      rw [evaluateFrom] at done ⊢
      cases result : evaluateRecord room table number record with
      | error e =>
          rw [result] at done
          cases done
      | ok rowLine =>
          obtain ⟨row, line⟩ := rowLine
          rw [result] at done
          obtain ⟨length, each⟩ := ih done
          refine ⟨congrArg (· + 1) length, List.forall_mem_cons.mpr ⟨?_, fun later mem => ?_⟩⟩
          · exact ⟨record, List.mem_cons_self, number, line, result⟩
          · obtain ⟨own, inRecords, known⟩ := each later mem
            exact ⟨own, List.mem_cons_of_mem _ inRecords, known⟩

/-- The rows of an evaluation that nothing ends are plain if the queries are texts. -/
theorem isPlain_of_evaluate {records : List Json}
    (texts : ∀ record ∈ records, isTextOrMissing (record.field? "query") = true)
    (done : (evaluate room records).error = none) :
    ∀ row ∈ (evaluate room records).rows, row.IsPlain := by
  intro row mem
  obtain ⟨record, inRecords, _, _, result⟩ := (rows_of_evaluateFrom done).2 row mem
  exact isPlain_row (texts record inRecords) result

end Rows

section Lines

variable {row : ResultRow}

/-- Whether a line of a log stays one line when the log is read: it has no line end of its own, and
there is no blank at either end. -/
structure IsSolid (line : List Char) : Prop where
  isLine : IsLine line
  noReturn : '\r' ∉ line
  nonempty : line ≠ []
  trim : Text.trim line = line

/-- The line of a row is solid: control characters are escaped, and brackets stand at its ends. -/
theorem isSolid_line (row : ResultRow) : IsSolid row.line.toList := by
  have text : row.line.toList = Json.write ResultRow.style 0 row.toJson := String.toList_ofList
  have visible : ∀ c ∈ row.line.toList, 0x20 ≤ c.toNat := fun c mem =>
    (Json.isPlain_write ResultRow.style 0 row.toJson c (text ▸ mem)).1 rfl
  have absent {c : Char} (control : c.toNat < 0x20) : c ∉ row.line.toList := fun mem =>
    absurd (visible c mem) (Nat.not_le.mpr control)
  have head : row.line.toList.head? = some '\x7b' := by
    rw [text, ResultRow.toJson, Json.write, Json.head?_enclose]
  have last : row.line.toList.getLast? = some '\x7d' := by
    rw [text, ResultRow.toJson, Json.write, Json.getLast?_enclose]
  refine ⟨absent (by decide), absent (by decide), fun none => ?_, Text.trim_eq_self ?_ ?_⟩
  · rw [none] at head
    cases head
  · rw [head]
    decide
  · rw [last]
    decide

/-- Solid lines come back from a log of them, one by one. -/
theorem logLines_of_isSolid {lines : List (List Char)} (solid : ∀ line ∈ lines, IsSolid line) :
    ((Text.lines (lines.flatMap (· ++ ['\n']))).map Text.trim).filter (!·.isEmpty) = lines := by
  have kept : ∀ line ∈ lines, (!line.isEmpty) = true := fun line mem => by
    rw [List.isEmpty_eq_false_iff.mpr (solid line mem).nonempty]
    rfl
  have trimmed : lines.map Text.trim = lines := by
    conv_rhs => rw [← List.map_id lines]
    exact List.map_congr_left fun line mem => (solid line mem).trim
  rw [Text.lines_ended fun line mem => ⟨(solid line mem).isLine, (solid line mem).noReturn⟩,
    List.map_append, trimmed, List.filter_append, List.filter_eq_self.mpr kept]
  exact List.append_nil lines

end Lines

section Tables

variable {tables : TableLibrary} {rows : List ResultRow} {frame : tables.Frame}

/-- The names of the fields of a result. -/
def resultKeys : List String := "query" :: scoreColumns ++ ["output"]

theorem cellsOf_toFields (key : String) :
    cellsOf (rows.map ResultRow.toFields) key = rows.map fun row => Record.get? row.toFields key :=
  List.map_map

theorem cellsOf_query :
    cellsOf (rows.map ResultRow.toFields) "query" = (rows.map ResultRow.query).map some := by
  rw [cellsOf_toFields, List.map_map]
  rfl

theorem toFields_ne_nil (filled : rows ≠ []) : rows.map ResultRow.toFields ≠ [] := by
  simpa using filled

/-- Plain rows have queries and scores. -/
theorem hasScores_toFields (plain : ∀ row ∈ rows, row.IsPlain) (filled : rows ≠ []) :
    HasScores (rows.map ResultRow.toFields) where
  filled := toFields_ne_nil filled
  queries := by
    rw [cellsOf_toFields, AreTexts, List.forall_mem_map]
    intro row mem
    obtain ⟨text, query⟩ := (plain row mem).query
    exact ⟨text, congrArg some query⟩
  scores := by
    have real (key : String) (score : ResultRow → Number.Binary64)
        (there : ∀ row : ResultRow, Record.get? row.toFields key = some (.real (score row))) :
        AreReals (cellsOf (rows.map ResultRow.toFields) key) := by
      rw [cellsOf_toFields, AreReals, List.forall_mem_map]
      exact fun row _ => ⟨score row, there row⟩
    simp only [scoreColumns, List.forall_mem_cons, List.not_mem_nil, IsEmpty.forall_iff,
      implies_true, and_true]
    exact ⟨real _ (·.scores.precision) fun _ => rfl, real _ (·.scores.coverage) fun _ => rfl,
      real _ (·.scores.f1) fun _ => rfl, real _ (·.scores.exactMatch) fun _ => rfl⟩

theorem keepsCells_output (filled : rows ≠ []) :
    KeepsCells (cellsOf (rows.map ResultRow.toFields) "output") := by
  refine ⟨cellsOf_ne_nil (toFields_ne_nil filled), .inr (.inr ?_)⟩
  obtain ⟨row, mem⟩ := List.exists_mem_of_ne_nil rows filled
  have object : ∃ fields, row.outputJson = .obj fields := by
    unfold ResultRow.outputJson
    split <;> exact ⟨_, rfl⟩
  obtain ⟨fields, output⟩ := object
  refine ⟨fields, ?_⟩
  rw [cellsOf_toFields]
  exact List.mem_map.mpr ⟨row, mem, congrArg some output⟩

/-- Plain rows make a table. -/
theorem exists_frame (laws : tables.Laws) (plain : ∀ row ∈ rows, row.IsPlain) :
    ∃ frame, tables.frame (rows.map ResultRow.toJson) = .ok frame ∧
      tables.IsTable frame (rows.map ResultRow.toFields) := by
  have objects : rows.map ResultRow.toJson = (rows.map ResultRow.toFields).map .obj :=
    List.map_map.symm
  rw [objects]
  obtain ⟨frame, made⟩ := @laws.frame_objects (rows.map ResultRow.toFields) (by
    rw [List.forall_mem_map]
    intro row mem
    obtain ⟨text, query⟩ := (plain row mem).query
    have output : fitsWord row.outputJson = true := by
      unfold ResultRow.outputJson
      split <;> rfl
    simp only [ResultRow.toFields, query, List.forall_mem_cons]
    exact ⟨rfl, rfl, rfl, rfl, rfl, output, List.forall_mem_nil _⟩)
  exact ⟨frame, made, .ofObjects made⟩

/-- Plain rows come back from their table. -/
theorem records_eq (laws : tables.Laws) (table : tables.IsTable frame (rows.map ResultRow.toFields))
    (plain : ∀ row ∈ rows, row.IsPlain) : tables.records frame = rows.map ResultRow.toFields := by
  refine @laws.records frame _ resultKeys table (by decide) ?_ fun filled key mem => ?_
  · rw [List.forall_mem_map]
    exact fun _ _ => rfl
  · have some : rows ≠ [] := by simpa using filled
    have has := hasScores_toFields plain some
    rcases List.mem_append.mp mem with first | last
    · rcases List.mem_cons.mp first with rfl | score
      · exact has.keeps_query
      · exact has.keeps_score score
    · rw [List.mem_singleton.mp last]
      exact keepsCells_output some

/-- Plain rows can be written, each on its line. -/
theorem savedLines_eq {host : Host} (laws : host.tables.Laws) {frame : host.tables.Frame}
    (table : host.tables.IsTable frame (rows.map ResultRow.toFields))
    (plain : ∀ row ∈ rows, row.IsPlain) :
    EvaluationRun.savedLines host frame = (rows.map ResultRow.line, none) := by
  have written : (rows.map ResultRow.toFields).map
      (fun row => (Json.obj row).print? ResultRow.style (some host.writing)) =
        (rows.map ResultRow.line).map .ok := by
    rw [List.map_map, List.map_map]
    refine List.map_congr_left fun row mem => ?_
    have sound := Json.fault?_of_isReadable ((plain row mem).readable.mono host.writes_results)
    change (row.toJson).print? ResultRow.style (some host.writing) = .ok row.line
    rw [Json.print?, sound]
    rfl
  rw [EvaluationRun.savedLines, records_eq laws table plain, written, untilError_map_ok]

end Tables

namespace EvaluationRun

theorem toList_logText (lines : List String) :
    (ResultRow.logText lines).toList = (lines.map String.toList).flatMap (· ++ ['\n']) := by
  simp [ResultRow.logText, String.toList_join, List.flatMap_map]

/-- A run over a list of records evaluates them, and goes on with their rows if nothing ends it. -/
theorem perform_eq_conclude {host : Host} {root : String} {file : Option String}
    {records : List Json} (loaded : load host.reading root file = .ok records)
    (done : (evaluate (some host.showing) records).error = none) :
    perform host root file = conclude host root
      (loadingLine root :: loadedLine records.length ::
        (evaluate (some host.showing) records).log) (evaluate (some host.showing) records).rows := by
  rw [perform, loaded]
  simp only [done]

/-- Plain rows are saved line by line, and then their table is reported on. -/
theorem exists_conclude_eq {host : Host} (laws : host.tables.Laws) {rows : List ResultRow}
    (plain : ∀ row ∈ rows, row.IsPlain) (root : String) (lines : List String) :
    ∃ frame, host.tables.frame (rows.map ResultRow.toJson) = .ok frame ∧
      host.tables.IsTable frame (rows.map ResultRow.toFields) ∧
      conclude host root lines rows =
        { lines := lines ++ (report host root frame).1
          saved := some (ResultRow.logText (rows.map ResultRow.line))
          error := (report host root frame).2 } := by
  obtain ⟨frame, made, table⟩ := exists_frame laws plain
  refine ⟨frame, made, table, ?_⟩
  rw [conclude, made]
  simp only [savedLines_eq laws table plain]

/-- Records whose queries are texts are evaluated without an error if they have the documented form;
and where no error ends an evaluation of such records, each has a row, and the rows come back from
the text of their lines, in their number, their order and with all that is in them. This text is
what a run over a file of the records saves. -/
theorem loadResults_savedText (host : Host) (records : List Json)
    (texts : ∀ record ∈ records, isTextOrMissing (record.field? "query") = true) :
    let evaluation := evaluate (some host.showing) records
    let saved := ResultRow.logText (evaluation.rows.map ResultRow.line)
    ((∀ record ∈ records, isRecord record = true) → evaluation.error = none) ∧
      (evaluation.error = none →
        evaluation.rows.length = records.length ∧
        loggedValues host.reading saved.toList = .ok (evaluation.rows.map ResultRow.toJson) ∧
        loadResults host.reading (some saved) =
          .ok (.results (evaluation.rows.map ResultRow.toJson)) ∧
        (host.tables.Laws → ∀ root file, load host.reading root file = .ok records →
          (perform host root file).saved = some saved)) := by
  intro evaluation saved
  refine ⟨fun wellFormed => (evaluateFrom_of_each (fun record mem =>
    exists_row_of_isRecord (wellFormed record mem)) 1).1, fun done => ?_⟩
  have plain : ∀ row ∈ evaluation.rows, row.IsPlain := isPlain_of_evaluate texts done
  have values : loggedValues host.reading saved.toList =
      .ok (evaluation.rows.map ResultRow.toJson) := by
    rw [loggedValues, toList_logText, List.map_map, logLines_of_isSolid]
    · rw [mapM_eq_ok_iff, List.forall₂_map_left_iff, List.forall₂_map_right_iff, List.forall₂_same]
      exact fun row mem =>
        Json.read_print ResultRow.style ((plain row mem).readable.mono host.reads_results)
    · rw [List.forall_mem_map]
      exact fun row _ => isSolid_line row
  refine ⟨(rows_of_evaluateFrom done).1, values, by rw [loadResults, values],
    fun laws root file loaded => ?_⟩
  obtain ⟨frame, -, -, concluded⟩ := exists_conclude_eq laws plain root
    (loadingLine root :: loadedLine records.length :: evaluation.log)
  rw [perform_eq_conclude loaded done, concluded]

/-- Line ends of every kind, quotes and blanks in the queries do no harm, and neither do a query
that is missing and one that is refused. -/
theorem loadResults_savedText_lineEnds :
    let records : List Json :=
      [.obj [("query", .str " science\nfiction \u0085\u2028\"movies\" ")], .obj [],
        .obj [("query", .str "\r\n"), ("content_type", .str "anime")]]
    let rows := (evaluate (some plainHost.showing) records).rows
    (∀ record ∈ records, isTextOrMissing (record.field? "query") = true) ∧
      (evaluate (some plainHost.showing) records).error = none ∧ rows.length = 3 ∧
      loadResults plainHost.reading (some (ResultRow.logText (rows.map ResultRow.line))) =
        .ok (.results (rows.map ResultRow.toJson)) := by
  intro records rows
  have texts : ∀ record ∈ records, isTextOrMissing (record.field? "query") = true := by decide
  obtain ⟨wellFormed, saved⟩ := loadResults_savedText plainHost records texts
  have done := wellFormed (by decide)
  obtain ⟨length, _, loaded, _⟩ := saved done
  exact ⟨texts, done, length, loaded⟩

end EvaluationRun

end FilmQuery
