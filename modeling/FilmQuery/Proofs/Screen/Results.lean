/-
# What is shown of results

The section about the last evaluation sets results out as a table.  From what a table library
documents it follows what the section shows of results whose queries are texts, whose scores are
doubles, and of whose outputs one at least is an object (`TablePage.AreScored`): a summary, and then
the chart of the kinds and the scores of each result, or the error that an output without fragments
leads to (`TablePage.resultSection_of_areScored`).  Values without parts have no scores to show
(`TablePage.resultSection_of_leaves`), and objects may lack them
(`TablePage.resultSection_of_isMissing`).
-/
import FilmQuery.Proofs.Evaluation.ItemByItem
import FilmQuery.Proofs.Json.Numbers
import FilmQuery.Proofs.Tables.Scores
import FilmQuery.Screen.TablePage

namespace FilmQuery

open Number (Binary64)

namespace TablePage

/-- The kind of a fragment; a missing one is the empty text. -/
def kindOf : Json → Json
  | .obj fields => (Record.get? fields "kind").getD (.str "")
  | _ => .str ""

/-- Whether a value is an object whose kind, if there is one, has no parts. -/
def isFragment : Json → Bool
  | .obj fields => (kindOf (.obj fields)).isLeaf
  | _ => false

/-- Whether a value is a list of fragments, or another value without parts to look at. -/
def areFragments : Json → Bool
  | .arr fragments => fragments.all isFragment
  | .str text => text = ""
  | .obj fields => fields.isEmpty
  | _ => false

/-- Whether an output is empty, or an object with a list of fragments or none. -/
def isOutput (output : Json) : Bool :=
  !output.truthy ||
    match output with
    | .obj fields => areFragments ((Record.get? fields "fragments").getD (.arr []))
    | _ => false

/-- The kinds of the fragments in an output. -/
def kindsIn : Json → List Json
  | .obj fields =>
    match (Record.get? fields "fragments").getD (.arr []) with
    | .arr fragments => fragments.map kindOf
    | _ => []
  | _ => []

section Kinds

variable {output : Json} {outputs : List Json}

theorem kindsIn_of_falsy (empty : output.truthy = false) : kindsIn output = [] := by
  cases output with
  | obj fields =>
      have none : fields = [] := by simpa [Json.truthy] using empty
      rw [none]
      rfl
  | _ => rfl

theorem outputKinds_eq_ok_iff {kinds : List Json} :
    outputKinds output = .ok kinds ↔ isOutput output = true ∧ kinds = kindsIn output := by
  unfold outputKinds isOutput
  cases full : output.truthy with
  | false => simp [kindsIn_of_falsy full, eq_comm]
  | true =>
      cases output with
      | obj fields =>
          simp only [Bool.not_true, Bool.false_or, Bool.false_eq_true, if_false, kindsIn]
          -- A missing list reads as an empty one on both sides.
          generalize (Record.get? fields "fragments").getD (.arr []) = held
          cases held with
          | arr fragments =>
              rw [areFragments, List.all_eq_true]
              refine mapM_eq_ok_iff_map fun fragment kind => ?_
              cases fragment with
              | obj fragment =>
                  rw [isFragment, kindOf]
                  by_cases leaf : ((Record.get? fragment "kind").getD (.str "")).isLeaf = true
                  · simp [leaf, eq_comm]
                  · simp [leaf]
              | _ => simp [isFragment]
          | str text =>
              by_cases empty : text = ""
              · simp [areFragments, empty, eq_comm]
              · simp [areFragments, empty]
          | obj fields => cases fields <;> simp [areFragments, eq_comm]
          | _ => simp [areFragments]
      | _ => simp

/-- Counts of names, as the kinds are counted. -/
def named (counts : List (String × Nat)) : List (Json × Nat) :=
  counts.map fun (name, n) => (.str name, n)

theorem countKind_named (name : String) (counts : List (String × Nat)) :
    countKind (.str name) (named counts) = named (Tally.bump name counts) := by
  induction counts with
  | nil => rfl
  | cons entry counts ih =>
      obtain ⟨other, n⟩ := entry
      have same : isSameKind (.str other) (.str name) = decide (other = name) := by
        simp [isSameKind, Json.same, Json.sameLeaf]
      rw [named, List.map_cons, countKind, same, Tally.bump]
      by_cases here : other = name
      · simp [here, named]
      · simp only [here, decide_false, Bool.false_eq_true, if_false]
        exact congrArg _ ih

/-- Names are counted as in any tally. -/
theorem foldl_countKind_named (names : List String) (tally : Tally String) :
    (names.map Json.str).foldl (fun counts kind => countKind kind counts) (named tally.entries) =
      named (tally.addAll names).entries := by
  induction names generalizing tally with
  | nil => rfl
  | cons name names ih =>
      rw [List.map_cons, List.foldl_cons, countKind_named]
      exact ih (tally.add name)

/-- The kinds in some outputs, as texts. -/
def kindNames (outputs : List Json) : List String := (outputs.flatMap kindsIn).map Json.display

/-- How often each kind is in some outputs, the most frequent first. -/
def kindBars (outputs : List Json) : List (String × Nat) :=
  (({} : Tally String).addAll (kindNames outputs)).byCount

/-- Whether the kinds in some outputs are names. -/
def HaveNames (outputs : List Json) : Prop :=
  ∀ kind ∈ outputs.flatMap kindsIn, ∃ name, kind = .str name ∧ isName name = true

theorem HaveNames.eq_map (names : HaveNames outputs) :
    outputs.flatMap kindsIn = (kindNames outputs).map Json.str := by
  rw [kindNames, List.map_map]
  refine (List.map_id _).symm.trans (List.map_congr_left fun kind mem => ?_)
  obtain ⟨name, rfl, _⟩ := names kind mem
  rfl

/-- Kinds that are names are counted if all outputs hold fragments. -/
theorem kindCounts_eq_ok (names : HaveNames outputs)
    (each : ∀ output ∈ outputs, isOutput output = true) :
    kindCounts outputs =
      .ok (named (({} : Tally String).addAll (kindNames outputs)).entries) := by
  have read : outputs.mapM outputKinds = .ok (outputs.map kindsIn) :=
    mapM_eq_ok_map fun output mem => outputKinds_eq_ok_iff.mpr ⟨each output mem, rfl⟩
  rw [kindCounts, read, Except.map, ← List.flatMap_def, names.eq_map]
  exact congrArg _ (foldl_countKind_named _ {})

/-- An output that holds no fragments ends the counting. -/
theorem exists_kindCounts_error (wrong : ¬ ∀ output ∈ outputs, isOutput output = true) :
    ∃ e, kindCounts outputs = .error e := by
  have unread (kinds : List (List Json)) : outputs.mapM outputKinds ≠ .ok kinds := fun read =>
    wrong ((mapM_eq_ok_iff_map fun _ _ => outputKinds_eq_ok_iff).mp read).1
  cases read : outputs.mapM outputKinds with
  | error e => exact ⟨e, by rw [kindCounts, read]; rfl⟩
  | ok kinds => exact (unread kinds read).elim

theorem mergeSort_named (counts : List (String × Nat)) :
    (named counts).mergeSort (fun a b => decide (b.2 ≤ a.2)) =
      named (counts.mergeSort fun a b => decide (b.2 ≤ a.2)) := by
  rw [named, named, List.map_mergeSort]
  exact fun _ _ _ _ => rfl

theorem forall_mem_bump {P : String → Prop} {name : String} {counts : List (String × Nat)}
    (here : P name) (all : ∀ entry ∈ counts, P entry.1) :
    ∀ entry ∈ Tally.bump name counts, P entry.1 := by
  induction counts with
  | nil => exact List.forall_mem_singleton.mpr here
  | cons entry counts ih =>
      obtain ⟨first, others⟩ := List.forall_mem_cons.mp all
      rw [Tally.bump]
      split
      · exact List.forall_mem_cons.mpr ⟨first, others⟩
      · exact List.forall_mem_cons.mpr ⟨first, ih others⟩

theorem forall_mem_addAll {P : String → Prop} {names : List String} (each : ∀ name ∈ names, P name)
    {tally : Tally String} (all : ∀ entry ∈ tally.entries, P entry.1) :
    ∀ entry ∈ (tally.addAll names).entries, P entry.1 := by
  induction names generalizing tally with
  | nil => exact all
  | cons name names ih =>
      obtain ⟨first, others⟩ := List.forall_mem_cons.mp each
      exact ih others (forall_mem_bump first all)

theorem HaveNames.isName_of_mem (names : HaveNames outputs) :
    ∀ entry ∈ kindBars outputs, isName entry.1 = true := by
  intro entry mem
  refine forall_mem_addAll (P := (isName · = true)) ?_ (by simp) entry (List.mem_mergeSort.mp mem)
  rw [kindNames, List.forall_mem_map]
  intro kind inKinds
  obtain ⟨name, rfl, isName⟩ := names kind inKinds
  exact isName

end Kinds

/-- What stands under "output" in some rows; a gap reads as not-a-number. -/
def outputsOf (rows : List Json.Fields) : List Json :=
  (cellsOf rows "output").map (·.getD (.real .nan))

/-- Whether rows are those of results: they have queries and scores, an exact match scores one or
zero, there is an object among the outputs, and the kinds in the outputs are names. -/
structure AreScored (rows : List Json.Fields) : Prop extends HasScores rows where
  fit : ∀ row ∈ rows, ∀ field ∈ row, fitsWord field.2 = true
  exact : ∀ cell ∈ cellsOf rows "exact_match",
    cell = some (.real .zero) ∨ cell = some (.real .one)
  short : rows.length < 0x20000000000000
  output : ∃ fields, some (.obj fields) ∈ cellsOf rows "output"
  names : HaveNames (outputsOf rows)

/-- The number of rows that score one for an exact match. -/
def exactCount (rows : List Json.Fields) : Nat :=
  (cellsOf rows "exact_match").count (some (.real .one))

/-- The summary of results: how many there are, how many are exact, and two means. -/
def summary (rows : List Json.Fields) (precision coverage : Binary64) : Element :=
  .columns
    [[.metric "Queries" (String.ofList (Number.decimalDigits rows.length)),
        .metric "Exact matches" (String.ofList (Number.decimalDigits (exactCount rows)))],
      [.metric "Mean precision" (precision.fixedText 2),
        .metric "Mean recall" (coverage.fixedText 2)]]

/-- The chart of the kinds in some outputs; none without fragments. -/
def chartOf (outputs : List Json) : List Element :=
  if kindBars outputs = [] then []
  else [.chart "Fragments per kind in the evaluation set" "Count" (kindBars outputs)]

/-- The queries and scores of some rows. -/
def scoreRows (rows : List Json.Fields) : Element :=
  .table ("query" :: scoreColumns)
    (rows.map fun row => (Record.restrict ("query" :: scoreColumns) row).map Prod.snd)

section Library

variable {tables : TableLibrary} {rows : List Json.Fields} {values : List Json}
  {frame scores : tables.Frame}

/-- Whether a number is the mean of a column. -/
def IsMean (scores : tables.Frame) (key : String) (mean : Binary64) : Prop :=
  ∃ column, tables.series scores key = .ok column ∧ tables.mean column = .ok mean

theorem exists_isMean (laws : tables.Laws) (has : HasScores rows)
    (table : tables.IsTable scores (rows.map (Record.restrict scoreColumns))) {key : String}
    (mem : key ∈ scoreColumns) : ∃ mean, IsMean scores key mean := by
  obtain ⟨column, xs, there, cells, same⟩ := laws.exists_score has table mem
  have filled : xs ≠ [] := by
    rintro rfl
    exact cellsOf_ne_nil has.filled same
  obtain ⟨mean, made⟩ := laws.mean cells filled
  exact ⟨mean, column, there, made⟩

theorem meanText_eq {key : String} {mean : Binary64} (isMean : IsMean scores key mean) :
    meanText tables scores key = .ok (mean.fixedText 2) := by
  obtain ⟨column, there, made⟩ := isMean
  rw [meanText, bind_of_ok there, bind_of_ok made]
  rfl

/-- A number with few digits is shown by them. -/
theorem display?_natCast {n : ℕ} (short : n < 0x20000000000000) :
    (Json.int n).display? none = .ok (String.ofList (Number.decimalDigits n)) := by
  have notLong : ¬ Json.isLong (n : ℤ) = true := by
    rw [Json.isLong_iff, Int.natAbs_natCast, not_le]
    exact short.trans_le ((by decide : 0x20000000000000 ≤ 10 ^ 16).trans
      (Nat.pow_le_pow_right (by decide) (by decide)))
  have text : Json.intText (n : ℤ) = Number.decimalDigits n := by
    rw [Json.intText, if_neg (Int.natCast_nonneg n).not_gt, Int.natAbs_natCast]
  rw [Json.display?, Json.fault?, if_neg notLong]
  change Except.ok (String.ofList (Json.intText n)) = _
  rw [text]

theorem exactText_eq (laws : tables.Laws) (scored : AreScored rows)
    (table : tables.IsTable scores (rows.map (Record.restrict scoreColumns))) :
    exactText tables scores = .ok (String.ofList (Number.decimalDigits (exactCount rows))) := by
  obtain ⟨column, xs, there, cells, same⟩ :=
    laws.exists_score scored.toHasScores table (by decide : "exact_match" ∈ scoreColumns)
  have bits : ∀ x ∈ xs, x = .zero ∨ x = .one := by
    have exact := scored.exact
    rw [same, List.forall_mem_map] at exact
    simpa using exact
  have short : xs.length < 0x20000000000000 := by
    have length := congrArg List.length same
    rw [cellsOf, List.length_map, List.length_map] at length
    exact length ▸ scored.short
  have count : exactCount rows = xs.count .one := by
    rw [exactCount, same]
    exact List.count_map_of_injective xs (fun x => some (Json.real x))
      (fun x y alike => by simpa using alike) .one
  have total := laws.total cells bits short
  have shown := display?_natCast (List.count_le_length.trans_lt short :
    xs.count .one < 0x20000000000000)
  rw [exactText, bind_of_ok there, bind_of_ok total, shown, count]
  rfl

/-- The summary of scored results is drawn to its end. -/
theorem metrics_eq (laws : tables.Laws) (scored : AreScored rows)
    (whole : tables.IsTable frame rows)
    (table : tables.IsTable scores (rows.map (Record.restrict scoreColumns)))
    {precision coverage : Binary64} (precise : IsMean scores "precision" precision)
    (covered : IsMean scores "recall" coverage) :
    metrics tables frame scores = (summary rows precision coverage, none) := by
  rw [metrics, exactText_eq laws scored table, meanText_eq precise, meanText_eq covered,
    laws.size whole]
  rfl

theorem exists_outputs (laws : tables.Laws) (scored : AreScored rows)
    (whole : tables.IsTable frame rows) :
    ∃ column, tables.series frame "output" = .ok column ∧
      tables.cells column = outputsOf rows :=
  laws.series whole ⟨cellsOf_ne_nil scored.filled, .inr (.inr scored.output)⟩

/-- Where all outputs hold fragments, there is a chart of their kinds. -/
theorem kindChart_eq (laws : tables.Laws) (scored : AreScored rows)
    (whole : tables.IsTable frame rows)
    (each : ∀ output ∈ outputsOf rows, isOutput output = true) :
    kindChart tables frame = .ok (chartOf (outputsOf rows)) := by
  obtain ⟨column, there, cells⟩ := exists_outputs laws scored whole
  have counted := kindCounts_eq_ok scored.names each
  have bars : tables.bars (named (kindBars (outputsOf rows))) = .ok (kindBars (outputsOf rows)) :=
    laws.bars scored.names.isName_of_mem
  rw [kindChart, bind_of_ok there, cells, bind_of_ok counted, mergeSort_named, ← Tally.byCount,
    ← kindBars, bind_of_ok bars]
  have empty : (named (({} : Tally String).addAll (kindNames (outputsOf rows))).entries).isEmpty =
      decide (kindBars (outputsOf rows) = []) := by
    rw [kindBars, Tally.byCount, Bool.eq_iff_iff]
    simp [named, ← List.length_eq_zero_iff]
  rw [empty, chartOf]
  by_cases none : kindBars (outputsOf rows) = []
  · rw [if_pos none, if_pos (decide_eq_true none)]
    rfl
  · rw [if_neg none, if_neg (by simpa using none)]
    rfl

/-- An output that holds no fragments ends the section. -/
theorem kindChart_eq_error (laws : tables.Laws) (scored : AreScored rows)
    (whole : tables.IsTable frame rows) {e : PageError}
    (failed : kindCounts (outputsOf rows) = .error e) : kindChart tables frame = .error e := by
  obtain ⟨column, there, cells⟩ := exists_outputs laws scored whole
  rw [kindChart, bind_of_ok there, cells, bind_of_error failed]

theorem scoreSheet_eq (laws : tables.Laws) (has : HasScores rows) {joined : tables.Frame}
    (made : tables.scoreTable frame scores = .ok joined)
    (table : tables.IsTable joined (rows.map (Record.restrict ("query" :: scoreColumns)))) :
    scoreSheet tables frame scores = .ok [scoreRows rows] := by
  rw [scoreSheet, bind_of_ok made, bind_of_ok (laws.sheet_scoreTable has table)]
  rfl

/-- Whether two numbers are the mean precision and coverage in the table that is made of rows. -/
def AreMeans (tables : TableLibrary) (rows : List Json.Fields) (precision coverage : Binary64) :
    Prop :=
  ∃ frame scores, tables.frame (rows.map .obj) = .ok frame ∧
    tables.select frame scoreColumns = .ok scores ∧ IsMean scores "precision" precision ∧
      IsMean scores "recall" coverage

/-- Of scored results a summary is shown, and then the chart of the kinds and the scores of each
result if all outputs hold fragments, or else the error that the first other output leads to. -/
theorem resultSection_of_areScored (laws : tables.Laws) (scored : AreScored rows) :
    ∃ precision coverage, AreMeans tables rows precision coverage ∧
      ((∀ output ∈ outputsOf rows, isOutput output = true) →
        resultSection tables (rows.map .obj) =
          summary rows precision coverage :: (chartOf (outputsOf rows) ++ [scoreRows rows])) ∧
      ∀ e, kindCounts (outputsOf rows) = .error e →
        resultSection tables (rows.map .obj) =
          [summary rows precision coverage, .failure e.name] := by
  obtain ⟨frame, made⟩ := laws.frame_objects scored.fit
  have whole : tables.IsTable frame rows := .ofObjects made
  obtain ⟨scores, joined, selected, joins, table, beside⟩ :=
    laws.exists_scoreTables whole scored.toHasScores
  obtain ⟨precision, precise⟩ :=
    exists_isMean laws scored.toHasScores table (by decide : "precision" ∈ scoreColumns)
  obtain ⟨coverage, covered⟩ :=
    exists_isMean laws scored.toHasScores table (by decide : "recall" ∈ scoreColumns)
  have filled : ¬ (rows.map Json.obj).isEmpty = true := by simpa using scored.filled
  have tablesMade : resultTables tables (rows.map .obj) = .ok (frame, scores) := by
    rw [resultTables, bind_of_ok made, bind_of_ok selected]
    rfl
  have shown : resultSection tables (rows.map .obj) =
      summary rows precision coverage ::
        drawn [kindChart tables frame, scoreSheet tables frame scores] := by
    rw [resultSection, if_neg filled, tablesMade]
    simp only [metrics_eq laws scored whole table precise covered]
  refine ⟨precision, coverage, ⟨frame, scores, made, selected, precise, covered⟩, fun each => ?_,
    fun e failed => ?_⟩
  · rw [shown, kindChart_eq laws scored whole each,
      scoreSheet_eq laws scored.toHasScores joins beside]
    simp [drawn, untilError]
  · rw [shown, kindChart_eq_error laws scored whole failed]
    rfl

theorem resultSection_of_error {e : PageError} (filled : values ≠ [])
    (failed : resultTables tables values = .error e) :
    resultSection tables values = [.failure e.name] := by
  have notEmpty : ¬ values.isEmpty = true := by simpa using filled
  rw [resultSection, if_neg notEmpty, failed]

/-- Values without parts make a table, but it has no columns of scores. -/
theorem resultSection_of_leaves (laws : tables.Laws) (filled : values ≠ [])
    (leaves : ∀ value ∈ values, value.isLeaf = true)
    (fit : ∀ value ∈ values, fitsWord value = true) :
    resultSection tables values = [.failure "KeyError"] := by
  obtain ⟨frame, made, missing⟩ := laws.frame_leaves filled leaves fit
  refine resultSection_of_error filled (e := .missingKey) ?_
  rw [resultTables, bind_of_ok made, bind_of_error (missing scoreColumns (by decide))]

/-- Objects make a table, but it may lack a column of scores. -/
theorem resultSection_of_isMissing (laws : tables.Laws) (filled : rows ≠ [])
    (fit : ∀ row ∈ rows, ∀ field ∈ row, fitsWord field.2 = true) {key : String}
    (asked : key ∈ scoreColumns) (missing : IsMissing rows key) :
    resultSection tables (rows.map .obj) = [.failure "KeyError"] := by
  obtain ⟨frame, made⟩ := laws.frame_objects fit
  refine resultSection_of_error (by simpa using filled) (e := .missingKey) ?_
  rw [resultTables, bind_of_ok made, bind_of_error (laws.select_missing made asked missing)]

end Library

end TablePage

end FilmQuery
