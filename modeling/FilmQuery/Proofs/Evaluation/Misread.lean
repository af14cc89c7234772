/-
# What a run reports as misread

A run over a file of records of the right form saves a line for each record and names the queries
that were not read as they should be (`EvaluationRun.perform_listed`).  Nothing can go wrong on the
way, unless the file lists no record at all: then there are no scores to show, and that ends the run
(`EvaluationRun.perform_emptyList`).

A row is exact if and only if its record is not missed (`isExact_iff_not_isMissed`), so the rows
that are taken out of the table for not being exact have the queries of the missed records
(`queries_of_tells`), and these are listed item by item (`EvaluationRun.exists_misreadSteps`).
-/
import FilmQuery.Proofs.Evaluation.Saved
import FilmQuery.Proofs.Tables.Plain

namespace FilmQuery

open Number (Binary64)

/-- Whether the query of a record is not read as it should be: it cannot be made into filters, or
other kinds and labels are found than are expected, or not as often. -/
def Json.IsMissed (record : Json) : Prop :=
  ¬ record.NamesMedium ∨
    (record.foundPairs : Multiset (String × String)) ≠ (record.expectedPairs : Multiset _)

instance (record : Json) : Decidable record.IsMissed :=
  inferInstanceAs (Decidable (_ ∨ _))

section Rows

variable {record : Json} {number : Nat} {row : ResultRow} {line : Option String}
  {room : Option Nat}

theorem lt_one_doubles :
    (Score.one .doubles).lt Binary64.one = false ∧ (Score.zero .doubles).lt Binary64.one = true ∧
      Binary64.zero.lt Binary64.one = true := by
  decide +kernel

theorem sameItems_map_some (found expected : List (String × String)) :
    Score.sameItems (found.map some) (expected.map some) = true ↔
      (found : Multiset (String × String)) = expected := by
  rw [Score.sameItems_iff, ← Multiset.map_coe, ← Multiset.map_coe]
  exact (Multiset.map_injective (Option.some_injective _)).eq_iff

/-- A row is exact if and only if its record is not missed. -/
theorem isExact_iff_not_isMissed (wellFormed : isRecord record = true)
    (result : evaluateRecord room Table.default number record = .ok (row, line)) :
    row.isExact = true ↔ ¬ record.IsMissed := by
  obtain ⟨one, zero, none⟩ := lt_one_doubles
  rcases row_cases wellFormed result with ⟨names, _, _, rfl⟩ | ⟨foreign, rfl⟩
  · have same := sameItems_map_some record.foundPairs record.expectedPairs
    rw [Json.IsMissed, not_or, not_not, not_ne_iff, ← same, and_iff_right names]
    simp only [ResultRow.isExact, Scores.of, Score.exactMatch]
    split <;> simp_all
  · refine iff_of_false ?_ (not_not_intro (.inl foreign))
    simp [ResultRow.isExact, Scores.none, none]

/-- What the row of a record says of it: its query, whether the query could be made into filters,
and whether it was read as it should be. -/
structure ResultRow.Tells (row : ResultRow) (record : Json) : Prop where
  query : row.query = .str record.queryText
  failed : (∃ message, row.output = .failed message) ↔ ¬ record.NamesMedium
  exact : row.isExact = true ↔ ¬ record.IsMissed

theorem tells_of_evaluateRecord (wellFormed : isRecord record = true)
    (result : evaluateRecord room Table.default number record = .ok (row, line)) :
    row.Tells record := by
  have exact := isExact_iff_not_isMissed wellFormed result
  rcases row_cases wellFormed result with ⟨names, _, _, rfl⟩ | ⟨foreign, rfl⟩
  · exact ⟨rfl, iff_of_false (by rintro ⟨_, ⟨⟩⟩) (not_not_intro names), exact⟩
  · exact ⟨rfl, iff_of_true ⟨_, rfl⟩ foreign, exact⟩

/-- Nothing ends the evaluation of records of the right form, and there is a row for each of them,
in their order, that tells of its record. -/
theorem tells_evaluate (room : Option Nat) {records : List Json}
    (wellFormed : ∀ record ∈ records, isRecord record = true) :
    (evaluate room records).error = none ∧
      List.Forall₂ (fun record row => row.Tells record) records (evaluate room records).rows := by
  obtain ⟨error, rows, -⟩ := evaluateFrom_of_each (fun record mem =>
    @exists_row_of_isRecord room record (wellFormed record mem)) 1
  have known : ∀ entry ∈ records.zipIdx 1, isRecord entry.1 = true :=
    fun entry mem => wellFormed _ (List.fst_mem_of_mem_zipIdx mem)
  have each := ((List.forall₂_and_left _ _).mpr ⟨known, rows⟩).imp
    fun entry row ⟨wellFormed, result⟩ => tells_of_evaluateRecord wellFormed result
  have numbered : List.Forall₂ (fun record row => row.Tells record)
      ((records.zipIdx 1).map Prod.fst) (evaluate room records).rows :=
    List.forall₂_map_left_iff.mpr each
  rw [List.zipIdx_map_fst] at numbered
  exact ⟨error, numbered⟩

end Rows

/-- What is kept of one of two lists that go with each other is what is kept of the other. -/
theorem map_filter_of_forall₂ {α β γ : Type} {p : α → Bool} {q : β → Bool} {f : α → γ}
    {g : β → γ} {xs : List α} {ys : List β}
    (each : List.Forall₂ (fun x y => p x = q y ∧ f x = g y) xs ys) :
    (xs.filter p).map f = (ys.filter q).map g := by
  induction each with
  | nil => rfl
  | cons here _ ih =>
      rw [List.filter_cons, List.filter_cons, here.1]
      split
      · rw [List.map_cons, List.map_cons, here.2, ih]
      · exact ih

/-- The records are missed whose rows are not exact, and they have the queries of these. -/
theorem queries_of_tells {records : List Json} {rows : List ResultRow}
    (tells : List.Forall₂ (fun record row => row.Tells record) records rows) :
    (rows.filter (!·.isExact)).map ResultRow.query =
      (records.filter (·.IsMissed)).map fun record => .str record.queryText := by
  have exact (record : Json) (row : ResultRow) (here : row.Tells record) :
      decide record.IsMissed = !row.isExact := by
    rw [Bool.eq_iff_iff, decide_eq_true_iff, Bool.not_eq_true', ← Bool.not_eq_true, here.exact,
      not_not]
  exact (map_filter_of_forall₂ (tells.imp fun record row here =>
    ⟨exact record row here, here.query.symm⟩)).symm

theorem filter_isBelow (rows : List ResultRow) :
    (rows.map ResultRow.toFields).filter (Record.isBelow "exact_match" .one) =
      (rows.filter (!·.isExact)).map ResultRow.toFields := by
  rw [List.filter_map]
  refine congrArg _ (List.filter_congr fun row _ => ?_)
  change row.scores.exactMatch.lt .one = !!row.scores.exactMatch.lt .one
  rw [Bool.not_not]

theorem isTextOrMissing_query {record : Json} (wellFormed : isRecord record = true) :
    isTextOrMissing (record.field? "query") = true := by
  cases record with
  | obj fields => exact ((Bool.and_eq_true _ _).mp wellFormed).1
  | _ => cases wellFormed

namespace EvaluationRun

/-- The lines about missed records: none, or how many there are and then the query of each. -/
def missedLines (missed : List Json) : List String :=
  if missed = [] then []
  else misreadHeading missed.length ++ missed.map fun record => misreadLine record.queryText

section Listed

variable {host : Host} {frame scores : host.tables.Frame} {records : List Json}
  {rows : List ResultRow}

/-- The queries that were not read as expected are listed to the end. -/
theorem exists_misreadSteps (laws : host.tables.Laws)
    (table : host.tables.IsTable frame (rows.map ResultRow.toFields))
    (plain : ∀ row ∈ rows, row.IsPlain) (filled : rows ≠ [])
    (tells : List.Forall₂ (fun record row => row.Tells record) records rows) :
    ∃ groups : List (List String), misreadSteps host frame = groups.map .ok ∧
      groups.flatten = missedLines (records.filter (·.IsMissed)) := by
  have exact : "exact_match" ∈ scoreColumns := by decide
  have has := hasScores_toFields plain filled
  obtain ⟨kept, below⟩ := laws.below .one table has.filled (has.scores _ exact)
  have part : host.tables.IsTable kept ((rows.filter (!·.isExact)).map ResultRow.toFields) :=
    filter_isBelow rows ▸ .ofBelow table below
  have queries := queries_of_tells tells
  generalize rows.filter (!·.isExact) = inexact at part queries
  have size : host.tables.size kept = (records.filter (·.IsMissed)).length := by
    rw [laws.size part, List.length_map, ← List.length_map ResultRow.query, queries,
      List.length_map]
  rw [misreadSteps, below]
  dsimp only
  rw [size]
  by_cases none : records.filter (·.IsMissed) = []
  · exact ⟨[], by rw [if_pos (by rw [none]; rfl)]; rfl, by rw [missedLines, if_pos none]; rfl⟩
  · have some : inexact ≠ [] := by
      rintro rfl
      exact none (List.map_eq_nil_iff.mp queries.symm)
    have texts : AreTexts (cellsOf (inexact.map ResultRow.toFields) "query") := by
      rw [cellsOf_query, queries, List.map_map, AreTexts, List.forall_mem_map]
      exact fun record _ => ⟨record.queryText, rfl⟩
    obtain ⟨column, there, cells⟩ :=
      laws.series part ⟨cellsOf_ne_nil (toFields_ne_nil some), .inl texts⟩
    have asked : (cellsOf (inexact.map ResultRow.toFields) "query").map (·.getD (.real .nan)) =
        (records.filter (·.IsMissed)).map fun record => .str record.queryText := by
      rw [cellsOf_query, queries, List.map_map, List.map_map]
      rfl
    refine ⟨misreadHeading (records.filter (·.IsMissed)).length ::
      (records.filter (·.IsMissed)).map fun record => [misreadLine record.queryText], ?_, ?_⟩
    · rw [if_neg (mt List.length_eq_zero_iff.mp none), there]
      dsimp only
      rw [cells, asked, List.map_map, List.map_cons, List.map_map]
      rfl
    · rw [missedLines, if_neg none, List.flatten_cons, ← List.flatMap_def, List.map_eq_flatMap]

/-- The report on a table of rows is printed to the end. -/
theorem exists_report (laws : host.tables.Laws) (root : String)
    (table : host.tables.IsTable frame (rows.map ResultRow.toFields))
    (plain : ∀ row ∈ rows, row.IsPlain) (filled : rows ≠ [])
    (tells : List.Forall₂ (fun record row => row.Tells record) records rows) :
    ∃ lines means, report host root frame =
      (["", "Per-query scores:"] ++ lines ++ ["", "Mean scores:"] ++ means ++
        missedLines (records.filter (·.IsMissed)) ++ savedNote root, none) := by
  have has := hasScores_toFields plain filled
  obtain ⟨scores, joined, selected, joins, part, whole⟩ := laws.exists_scoreTables table has
  obtain ⟨means, averaged⟩ := laws.exists_means has part
  obtain ⟨lines, listed⟩ := laws.exists_lines has whole
  obtain ⟨groups, steps, missed⟩ := exists_misreadSteps laws table plain filled tells
  have both : (host.tables.scoreTable frame scores >>= host.tables.lines) = .ok lines := by
    rw [joins]
    exact listed
  have all : reportSteps host root frame scores =
      ([["", "Per-query scores:"], lines, ["", "Mean scores:"], means] ++ groups ++
        [savedNote root]).map .ok := by
    rw [reportSteps, both, averaged, steps, List.map_append, List.map_append]
    rfl
  refine ⟨lines, means, ?_⟩
  rw [report, selected]
  dsimp only
  rw [all, untilError_map_ok, ← missed]
  simp

end Listed

end EvaluationRun

end FilmQuery
