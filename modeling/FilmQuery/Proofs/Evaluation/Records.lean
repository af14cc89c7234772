/-
# Records are evaluated each by itself

A record of the right form (`isRecord`) always has a result: what is read from its query can be
made into a patch, so nothing goes wrong but that the content type is no name of a medium, and then
the record is scored zero and one line is logged (`evaluateRecord_cases`).  The number of a record
shows in that line and in the identifiers of the fragments, and nowhere else
(`map_fst_evaluateRecord`).

A run over some records puts the results one behind the other (`evaluateFrom_of_each`), so each row
is that of its record alone.
-/
import FilmQuery.Evaluation
import FilmQuery.Proofs.Evaluation.Dice
import FilmQuery.Proofs.Evaluation.ItemByItem
import FilmQuery.Proofs.Patch.Chips
import FilmQuery.Proofs.Query.Rereading
import FilmQuery.Proofs.Text.Literal

namespace FilmQuery

/-- The value of a field, if the value is an object and has the field. -/
def Json.field? (key : String) : Json → Option Json
  | .obj fields => Record.get? fields key
  | _ => none

/-- Whether a field is a text or missing. -/
def isTextOrMissing : Option Json → Bool
  | none | some (.str _) => true
  | _ => false

/-- The text of a field; a missing one reads as the empty text. -/
def textOf : Option Json → String
  | some (.str text) => text
  | _ => ""

/-- Whether a value is a fragment to be expected: an object whose kind and label are texts. -/
def isExpected : Json → Bool
  | .obj fields =>
    isTextOrMissing (Record.get? fields "kind") && isTextOrMissing (Record.get? fields "label")
  | _ => false

/-- Whether a value says what is expected: nothing at all, or a list of fragments. -/
def isExpectation (value : Json) : Bool :=
  !value.truthy ||
    match value with
    | .arr items => items.all isExpected
    | _ => false

/-- Whether a value is a record of the right form. Its content type may be anything. -/
def isRecord : Json → Bool
  | .obj fields =>
    isTextOrMissing (Record.get? fields "query") &&
      isExpectation ((Record.get? fields "expected").getD .null)
  | _ => false

namespace Json

/-- The query of a record. -/
def queryText (record : Json) : String := textOf (record.field? "query")

/-- The kinds and labels of the fragments in a list. -/
def listedPairs : Json → List (String × String)
  | .arr items => items.map fun item => (textOf (item.field? "kind"), textOf (item.field? "label"))
  | _ => []

/-- The kinds and labels that a record expects. -/
def expectedPairs (record : Json) : List (String × String) :=
  listedPairs ((record.field? "expected").getD .null)

/-- The kinds and labels that are found in the query of a record. -/
def foundPairs (record : Json) : List (String × String) :=
  (Table.default.fragments 0 (.str record.queryText)).map fun f => (f.kind.name, f.label)

/-- Whether the content type of a record is missing or one of the two names. -/
def NamesMedium (record : Json) : Prop :=
  record.field? "content_type" = none ∨ record.field? "content_type" = some (.str "movie") ∨
    record.field? "content_type" = some (.str "tv")

instance (record : Json) : Decidable record.NamesMedium :=
  inferInstanceAs (Decidable (_ ∨ _ ∨ _))

/-- What is said about a record whose content type is no name of a medium. -/
def complaint (room : Option Nat) (record : Json) : String :=
  unknownContentTypeMessage room (.plain ((record.field? "content_type").getD .null))

end Json

open Text (IsLine isLine_append)

section Reading

variable {value : Json}

theorem getD_of_isTextOrMissing {field : Option Json} (isText : isTextOrMissing field = true) :
    field.getD (.str "") = .str (textOf field) := by
  unfold isTextOrMissing at isText
  split at isText
  · rfl
  · rfl
  · cases isText

theorem expectedOf_of_isExpected (isItem : isExpected value = true) :
    expectedOf value =
      .ok (.str (textOf (value.field? "kind")), .str (textOf (value.field? "label"))) := by
  cases value with
  | obj fields =>
      rw [isExpected, Bool.and_eq_true] at isItem
      rw [expectedOf, getD_of_isTextOrMissing isItem.1, getD_of_isTextOrMissing isItem.2]
      rfl
  | _ => cases isItem

/-- Nothing at all is expected, or there is a list of what is. -/
theorem isExpectation_cases (wellFormed : isExpectation value = true) :
    value.truthy = false ∨
      ∃ items, value = .arr items ∧ ∀ item ∈ items, isExpected item = true := by
  cases falsy : value.truthy with
  | false => exact .inl rfl
  | true =>
      unfold isExpectation at wellFormed
      rw [falsy, Bool.not_true, Bool.false_or] at wellFormed
      cases value with
      | arr items => exact .inr ⟨items, rfl, List.all_eq_true.mp wellFormed⟩
      | _ => cases wellFormed

theorem listedPairs_of_falsy (nothing : value.truthy = false) : value.listedPairs = [] := by
  cases value with
  | arr items =>
      have empty : items = [] := by simpa [Json.truthy] using nothing
      rw [empty]
      rfl
  | _ => rfl

/-- What is expected is read off the list, if there is one. -/
theorem expectations_of_isExpectation (wellFormed : isExpectation value = true) :
    expectations value =
      .ok (value.listedPairs.map fun (kind, label) => (.str kind, .str label)) := by
  unfold expectations
  cases nothing : value.truthy with
  | false =>
      rw [listedPairs_of_falsy nothing]
      rfl
  | true =>
      rcases isExpectation_cases wellFormed with falsy | ⟨items, rfl, each⟩
      · rw [nothing] at falsy
        cases falsy
      · rw [Json.listedPairs, List.map_map]
        exact mapM_eq_ok_map fun item mem => expectedOf_of_isExpected (each item mem)

end Reading

section Result

theorem filtersFor_inReading (run : Nat) (contentType : Json) (fragments : List Fragment) :
    filtersFor contentType (fragments.map (Fragment.inReading run)) =
      filtersFor contentType fragments := by
  simp only [filtersFor, Patch.ofFragments_inReading]

theorem scoresOf_inReading (run : Nat) (fragments : List Fragment) (expected : List Expected) :
    scoresOf (fragments.map (Fragment.inReading run)) expected = scoresOf fragments expected := by
  rw [scoresOf, scoresOf, List.map_map]
  rfl

/-- The content type that a record is evaluated for. -/
def contentTypeOf (fields : Json.Fields) : Json :=
  (Record.get? fields "content_type").getD (.str Medium.movie.name)

/-- A record whose expectations can be read is scored, or what its query comes to is refused. -/
theorem evaluateRecord_eq {fields : Json.Fields} {expected : List Expected}
    (read : expectations ((Record.get? fields "expected").getD .null) = .ok expected)
    (room : Option Nat) (table : Table) (number : Nat) :
    let query := (Record.get? fields "query").getD (.str "")
    let fragments := table.fragments number query
    evaluateRecord room table number (.obj fields) =
      match filtersFor (contentTypeOf fields) fragments with
      | .error (.unknownContentType given) =>
        let message := unknownContentTypeMessage room given
        .ok (⟨query, .none, .failed message⟩, some (failureLine number message))
      | .error reason => .error (.unmade reason)
      | .ok filters => (scoresOf fragments expected).map fun scores =>
        (⟨query, scores, .found fragments filters⟩, none) := by
  intro query fragments
  simp only [evaluateRecord, read]
  change (match filtersFor (contentTypeOf fields) fragments with
    | .error (.unknownContentType given) => _
    | .error reason => _
    | .ok filters => _) = _
  cases filtersFor (contentTypeOf fields) fragments with
  | error e => cases e <;> rfl
  | ok filters =>
      change (scoresOf fragments expected >>= _) = _
      cases scoresOf fragments expected <;> rfl

/-- The result for a record under the number of another one. -/
def Output.inReading (run : Nat) : Output → Output
  | .found fragments filters => .found (fragments.map (Fragment.inReading run)) filters
  | .failed message => .failed message

/-- The row of a record under another number. -/
def ResultRow.inReading (run : Nat) (row : ResultRow) : ResultRow :=
  { row with output := row.output.inReading run }

/-- The number of a record shows in the identifiers of its fragments and in what is logged. -/
theorem map_fst_evaluateRecord (room : Option Nat) (table : Table) (number other : Nat)
    (record : Json) :
    (evaluateRecord room table other record).map Prod.fst =
      (evaluateRecord room table number record).map fun result => result.1.inReading other := by
  cases record with
  | obj fields =>
      cases read : expectations ((Record.get? fields "expected").getD .null) with
      | error e => simp only [evaluateRecord, read]; rfl
      | ok expected =>
          rw [evaluateRecord_eq read, evaluateRecord_eq read,
            table.fragments_inReading number other, filtersFor_inReading, scoresOf_inReading]
          split
          · rfl
          · rfl
          · cases scoresOf (table.fragments number ((Record.get? fields "query").getD (.str "")))
              expected <;> rfl
  | _ => rfl

variable {room : Option Nat} {record : Json} {fields : Json.Fields}

theorem exists_medium_of_namesMedium (names : Json.NamesMedium (.obj fields)) :
    ∃ medium, Medium.ofJson (contentTypeOf fields) = .ok medium := by
  have names : Record.get? fields "content_type" = none ∨
      Record.get? fields "content_type" = some (.str "movie") ∨
        Record.get? fields "content_type" = some (.str "tv") := names
  unfold contentTypeOf
  rcases names with missing | movie | tv
  · exact ⟨.movie, by rw [missing]; rfl⟩
  · exact ⟨.movie, by rw [movie]; rfl⟩
  · exact ⟨.tv, by rw [tv]; rfl⟩

theorem ofJson_of_not_namesMedium (foreign : ¬ Json.NamesMedium (.obj fields)) :
    Medium.ofJson (contentTypeOf fields) =
      .error (.unknownContentType
        (.plain ((Json.field? "content_type" (.obj fields)).getD .null))) := by
  have foreign : ¬ (Record.get? fields "content_type" = none ∨
      Record.get? fields "content_type" = some (.str "movie") ∨
        Record.get? fields "content_type" = some (.str "tv")) := foreign
  change _ = Except.error
    (FilterError.unknownContentType (.plain ((Record.get? fields "content_type").getD .null)))
  unfold contentTypeOf
  cases found : Record.get? fields "content_type" with
  | none => exact absurd (.inl found) foreign
  | some value =>
      have unnamed : Medium.ofJson? value = none := by
        cases value with
        | str name =>
            rw [found] at foreign
            simp only [reduceCtorEq, Option.some.injEq, Json.str.injEq, false_or, not_or] at foreign
            simp [Medium.ofJson?, Medium.ofName?, foreign.1, foreign.2]
        | _ => rfl
      rw [Option.getD_some, Option.getD_some, Medium.ofJson, unnamed]

/-- What is found by the rules of record can be made into filters. -/
theorem exists_filtersFor {contentType : Json} {medium : Medium}
    (names : Medium.ofJson contentType = .ok medium) (number : Nat) (query : Json) :
    ∃ filters, filtersFor contentType (Table.default.fragments number query) = .ok filters := by
  have record := OfRecord.fragments number query
  obtain ⟨filters, sets, _⟩ := record.exists_filters medium
  refine ⟨filters, ?_⟩
  rw [filtersFor, bind_of_ok names, bind_of_ok (record.ofFragments_eq_digest medium)]
  exact sets

theorem scoresOf_pairs (fragments : List Fragment) (pairs : List (String × String)) :
    scoresOf fragments (pairs.map fun (kind, label) => (.str kind, .str label)) =
      .ok (Scores.of ((fragments.map fun f => (f.kind.name, f.label)).map some)
        (pairs.map some)) := by
  have leaves : (pairs.map fun (kind, label) => (Json.str kind, Json.str label)).all
      (fun (kind, label) => kind.isLeaf && label.isLeaf) = true := by
    simp [Json.isLeaf]
  rw [scoresOf, if_pos leaves, List.map_map, List.map_map]
  rfl

theorem foundPairs_eq (record : Json) (number : Nat) :
    (Table.default.fragments number (.str record.queryText)).map
        (fun f => (f.kind.name, f.label)) = record.foundPairs := by
  rw [Json.foundPairs, Table.default.fragments_inReading 0 number, List.map_map]
  rfl

/-- A record of the right form always has a result.  It is scored if its content type names a medium
or is missing; else its row says why not, and so does a line of the log. -/
theorem evaluateRecord_cases (wellFormed : isRecord record = true) (number : Nat) :
    (record.NamesMedium ∧ ∃ filters, evaluateRecord room Table.default number record =
        .ok (⟨.str record.queryText,
          .of (record.foundPairs.map some) (record.expectedPairs.map some),
          .found (Table.default.fragments number (.str record.queryText)) filters⟩, none)) ∨
      (¬ record.NamesMedium ∧ evaluateRecord room Table.default number record =
        .ok (⟨.str record.queryText, .none, .failed (record.complaint room)⟩,
          some (failureLine number (record.complaint room)))) := by
  cases record with
  | obj fields =>
      rw [isRecord, Bool.and_eq_true] at wellFormed
      obtain ⟨text, expectation⟩ := wellFormed
      have query : (Record.get? fields "query").getD (.str "") =
          .str (Json.queryText (.obj fields)) := getD_of_isTextOrMissing text
      rw [evaluateRecord_eq (expectations_of_isExpectation expectation), query]
      by_cases names : Json.NamesMedium (.obj fields)
      · obtain ⟨medium, named⟩ := exists_medium_of_namesMedium names
        obtain ⟨filters, sets⟩ := exists_filtersFor named number
          (.str (Json.queryText (.obj fields)))
        refine .inl ⟨names, filters, ?_⟩
        rw [sets, ← foundPairs_eq _ number]
        simp only [scoresOf_pairs]
        rfl
      · refine .inr ⟨names, ?_⟩
        have refused : filtersFor (contentTypeOf fields)
            (Table.default.fragments number (.str (Json.queryText (.obj fields)))) =
              .error (.unknownContentType
                (.plain ((Json.field? "content_type" (.obj fields)).getD .null))) := by
          rw [filtersFor, ofJson_of_not_namesMedium names]
          rfl
        rw [refused]
        rfl
  | _ => cases wellFormed

/-- The row of a record of the right form: the scores and what was found, or why it is refused. -/
theorem row_cases {number : Nat} {row : ResultRow} {line : Option String}
    (wellFormed : isRecord record = true)
    (result : evaluateRecord room Table.default number record = .ok (row, line)) :
    (record.NamesMedium ∧ ∃ fragments filters, row = ⟨.str record.queryText,
        .of (record.foundPairs.map some) (record.expectedPairs.map some),
        .found fragments filters⟩) ∨
      (¬ record.NamesMedium ∧
        row = ⟨.str record.queryText, .none, .failed (record.complaint room)⟩) := by
  rcases evaluateRecord_cases wellFormed number with ⟨names, filters, found⟩ | ⟨foreign, failed⟩
  · rw [found] at result
    cases result
    exact .inl ⟨names, _, filters, rfl⟩
  · rw [failed] at result
    cases result
    exact .inr ⟨foreign, rfl⟩

end Result

section Run

variable {room : Option Nat}

/-- Where each record has a result, the results stand one behind the other: a row for each record,
and whatever lines there are. -/
theorem evaluateFrom_of_each {table : Table} {line? : Nat → Json → Option String}
    {records : List Json}
    (each : ∀ record ∈ records, ∀ number, ∃ row,
      evaluateRecord room table number record = .ok (row, line? number record))
    (number : Nat) :
    let evaluation := evaluateFrom room table number records
    evaluation.error = none ∧
      List.Forall₂ (fun (record, n) row =>
        evaluateRecord room table n record = .ok (row, line? n record))
        (records.zipIdx number) evaluation.rows ∧
      evaluation.log = (records.zipIdx number).filterMap fun (record, n) => line? n record := by
  -- For any number of the first record, as the others go on counting from there.
  induction records generalizing number with
  | nil => exact ⟨rfl, .nil, rfl⟩
  | cons record rest ih =>
      obtain ⟨here, later⟩ := List.forall_mem_cons.mp each
      obtain ⟨row, result⟩ := here number
      obtain ⟨error, rows, log⟩ := ih later (number + 1)
      simp only [evaluateFrom, result, List.zipIdx_cons]
      refine ⟨error, .cons result rows, ?_⟩
      rw [log, List.filterMap_cons]
      cases line? number record <;> rfl

/-- The line about a record, if its content type is no name of a medium. -/
def complaintLine? (room : Option Nat) (number : Nat) (record : Json) : Option String :=
  if record.NamesMedium then none else some (failureLine number (record.complaint room))

theorem exists_row_of_isRecord {record : Json} (wellFormed : isRecord record = true)
    (number : Nat) : ∃ row, evaluateRecord room Table.default number record =
      .ok (row, complaintLine? room number record) := by
  unfold complaintLine?
  rcases evaluateRecord_cases wellFormed number with ⟨names, filters, result⟩ | ⟨foreign, result⟩
  · rw [if_pos names]
    exact ⟨_, result⟩
  · rw [if_neg foreign]
    exact ⟨_, result⟩

theorem isLine_failureLine (number : Nat) {message : String} (line : IsLine message.toList) :
    IsLine (failureLine number message).toList := by
  have start : IsLine "[ERROR] Failed on query #".toList := by decide
  have colon : IsLine ": ".toList := by decide
  have digits : IsLine (String.ofList (Number.decimalDigits number)).toList := by
    rw [String.toList_ofList]
    exact Number.isLine_decimalDigits number
  unfold failureLine
  simp only [String.toList_append]
  exact isLine_append.mpr ⟨isLine_append.mpr ⟨isLine_append.mpr ⟨start, digits⟩, colon⟩, line⟩

theorem isLine_complaint (room : Option Nat) (record : Json) :
    IsLine (record.complaint room).toList := by
  unfold Json.complaint unknownContentTypeMessage
  split
  next fault _ => cases fault <;> decide +kernel
  next =>
    have start : IsLine "Unknown content type ".toList := by decide
    have stop : IsLine ", expected one of ('movie', 'tv')".toList := by decide
    have shown := Json.isLine_literal ((record.field? "content_type").getD .null)
    simp only [String.toList_append]
    exact isLine_append.mpr ⟨isLine_append.mpr ⟨start, shown⟩, stop⟩

theorem filterMap_complaintLine? (room : Option Nat) (records : List Json) :
    ((records.zipIdx 1).filterMap fun (record, n) => complaintLine? room n record) =
      (records.zipIdx.filter fun (record, _) => ¬ record.NamesMedium).map
        fun (record, i) => failureLine (i + 1) (record.complaint room) := by
  rw [List.zipIdx_succ, List.filterMap_map, ← List.filterMap_eq_map, List.filterMap_filter]
  refine List.filterMap_congr fun (record, i) _ => ?_
  by_cases names : record.NamesMedium <;> simp [complaintLine?, names]

/-- A record alone has the row that it has under another number. -/
theorem rows_evaluate_singleton {record : Json} {number : Nat} {row : ResultRow}
    {line : Option String}
    (result : evaluateRecord room Table.default number record = .ok (row, line)) :
    (evaluate room [record]).rows = [row.inReading 1] := by
  have alone := map_fst_evaluateRecord room Table.default number 1 record
  rw [result] at alone
  rw [evaluate, evaluateFrom]
  cases first : evaluateRecord room Table.default 1 record with
  | error e =>
      rw [first] at alone
      cases alone
  | ok resultAlone =>
      rw [first] at alone
      have same : resultAlone.1 = row.inReading 1 := Except.ok.inj alone
      rw [← same]
      rfl

theorem failed_iff_not_namesMedium {record : Json} {number : Nat} {row : ResultRow}
    {line : Option String} (wellFormed : isRecord record = true)
    (result : evaluateRecord room Table.default number record = .ok (row, line)) :
    row.scores = .none ∧ (∃ message, row.output = .failed message) ↔ ¬ record.NamesMedium := by
  rcases row_cases wellFormed result with ⟨names, _, _, rfl⟩ | ⟨foreign, rfl⟩
  · exact iff_of_false (by rintro ⟨_, _, ⟨⟩⟩) (not_not_intro names)
  · exact iff_of_true ⟨rfl, _, rfl⟩ foreign

/-- Of each record of the right form, whatever stands beside it, there is one row, in the order of
the records.  It is the row that the record has alone, but for the number of the record in the
identifiers of its fragments.  It is an error with all scores zero if and only if the content type
is there and is no name of a medium; and the log has just a line with the number of each such
record, in their order. -/
theorem evaluate_eachAlone (room : Option Nat) (records : List Json)
    (wellFormed : ∀ record ∈ records, isRecord record = true) :
    let evaluation := evaluate room records
    evaluation.error = none ∧ evaluation.rows.length = records.length ∧
      (∀ (i : Nat) record, records[i]? = some record → ∃ row : ResultRow,
        evaluation.rows[i]? = some row ∧
        (evaluate room [record]).rows = [row.inReading 1] ∧
        (row.scores = .none ∧ (∃ message, row.output = .failed message) ↔
          ¬ record.NamesMedium)) ∧
      evaluation.log =
        (records.zipIdx.filter fun (record, _) => ¬ record.NamesMedium).map
          (fun (record, i) => failureLine (i + 1) (record.complaint room)) ∧
      ∀ line ∈ evaluation.log, IsLine line.toList := by
  intro evaluation
  obtain ⟨error, rows, log⟩ := evaluateFrom_of_each
    (fun record mem => exists_row_of_isRecord (wellFormed record mem)) 1
  rw [filterMap_complaintLine?] at log
  change evaluation.log = _ at log
  obtain ⟨lengths, results⟩ := List.forall₂_iff_get.mp rows
  rw [List.length_zipIdx] at lengths
  refine ⟨error, lengths.symm, fun i record found => ?_, log, ?_⟩
  · obtain ⟨inRange, rfl⟩ := List.getElem?_eq_some_iff.mp found
    have inRows : i < evaluation.rows.length := Nat.lt_of_lt_of_eq inRange lengths
    have result := results i (by rwa [List.length_zipIdx]) inRows
    rw [List.get_eq_getElem, List.getElem_zipIdx] at result
    exact ⟨evaluation.rows[i], List.getElem?_eq_getElem inRows, rows_evaluate_singleton result,
      failed_iff_not_namesMedium (wellFormed _ (List.getElem_mem inRange)) result⟩
  · rw [log]
    intro line mem
    obtain ⟨⟨record, i⟩, _, rfl⟩ := List.mem_map.mp mem
    exact isLine_failureLine (i + 1) (isLine_complaint room record)

/-- The records around one that is scored are both refused: a name of no medium, and no name at all
where a record says so itself. -/
theorem evaluate_eachAlone_refused :
    let records : List Json :=
      [.obj [("query", .str "action movies"), ("content_type", .str "anime")],
        .obj [("query", .str "comedies"), ("expected",
          .arr [.obj [("kind", .str "genre"), ("label", .str "Genre: comedies")]])],
        .obj [("content_type", .null), ("expected", .int 0)]]
    (∀ record ∈ records, isRecord record = true) ∧ (evaluate (some 900) records).rows.length = 3 ∧
      (evaluate (some 900) records).log =
        ["[ERROR] Failed on query #1: Unknown content type 'anime', " ++
            "expected one of ('movie', 'tv')",
          "[ERROR] Failed on query #3: Unknown content type None, " ++
            "expected one of ('movie', 'tv')"] := by
  intro records
  have wellFormed : ∀ record ∈ records, isRecord record = true := by decide
  obtain ⟨_, length, _, log, _⟩ := evaluate_eachAlone (some 900) records wellFormed
  refine ⟨wellFormed, length, ?_⟩
  rw [log]
  decide +kernel

end Run

end FilmQuery
