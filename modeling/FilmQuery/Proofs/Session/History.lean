/-
# The history of a session

What a session shows can be told from what was asked of it.  Its fragments are those of the latest
reading without the ones removed since, unless the session was cleared; its query is that of the
latest reading; and its counts are those of everything that was ever found, whatever became of it
(`run_history`).

An operation reads a query or it does not.  The latter kind is looked at once (`advance_other`), so
that neither the run up to the latest reading nor the run behind it goes through the operations
again.
-/
import FilmQuery.Proofs.Query.Identity
import FilmQuery.Proofs.Session.Medium

namespace FilmQuery

namespace Tally

variable {α : Type} [DecidableEq α]

/-- A tally counts some things if each of them has its number as entry, and nothing else has one. -/
def Counts (tally : Tally α) (things : List α) : Prop :=
  ∀ x, tally.entries.lookup x = if things.count x = 0 then none else some (things.count x)

theorem counts_empty : ({} : Tally α).Counts [] := fun _ => rfl

theorem lookup_entry (x y : α) (n : Nat) (rest : List (α × Nat)) :
    ((x, n) :: rest).lookup y = if y = x then some n else rest.lookup y := by
  rw [List.lookup_cons]
  by_cases same : y = x
  · simp [same]
  · simp [same, beq_eq_false_iff_ne.mpr same]

theorem lookup_bump (x y : α) (entries : List (α × Nat)) :
    (bump x entries).lookup y =
      if y = x then some ((entries.lookup x).getD 0 + 1) else entries.lookup y := by
  induction entries with
  | nil => exact lookup_entry x y 1 []
  | cons entry rest ih =>
      obtain ⟨z, n⟩ := entry
      by_cases here : z = x
      · subst here
        by_cases same : y = z <;> simp [bump, lookup_entry, same]
      · by_cases same : y = x
        · subst same
          simp [bump, here, lookup_entry, ih, Ne.symm here]
        · simp [bump, here, lookup_entry, ih, same]

theorem Counts.add {tally : Tally α} {things : List α} (counts : tally.Counts things) (x : α) :
    (tally.add x).Counts (things ++ [x]) := by
  intro y
  rw [Tally.add, lookup_bump, counts x, counts y, List.count_append, List.count_singleton]
  by_cases same : y = x
  · subst same
    by_cases none : things.count y = 0 <;> simp [none]
  · simp [same, Ne.symm same]

theorem Counts.addAll {tally : Tally α} {things : List α} (counts : tally.Counts things)
    (more : List α) : (tally.addAll more).Counts (things ++ more) := by
  induction more generalizing tally things with
  | nil => rwa [List.append_nil]
  | cons x more ih =>
      rw [List.append_cons]
      exact ih (counts.add x)

end Tally

/-- The query that a session takes a value for: one that says nothing is the empty query. -/
def Session.taken (value : Json) : Json := if value.truthy then value else .str ""

namespace SessionOp

/-- The query that an operation reads. -/
def query? : SessionOp → Option Json
  | .parse value => some (Session.taken value)
  | _ => none

/-- The identifier whose fragment an operation removes. -/
def removed? : SessionOp → Option FragmentId
  | .remove id => some id
  | _ => none

/-- The queries that some operations read. -/
def queries (ops : List SessionOp) : List Json := ops.filterMap query?

/-- The identifiers whose fragments some operations remove. -/
def removals (ops : List SessionOp) : List FragmentId := ops.filterMap removed?

/-- What a table finds in the queries that some operations read, reading by reading. -/
def found (table : Table) (ops : List SessionOp) : List (List Fragment) :=
  (queries ops).mapIdx table.fragments

theorem queries_append (before after : List SessionOp) :
    queries (before ++ after) = queries before ++ queries after := List.filterMap_append

theorem removals_concat (ops : List SessionOp) (op : SessionOp) :
    removals (ops ++ [op]) = removals ops ++ op.removed?.toList := by
  rw [removals, List.filterMap_append, removals]
  cases op <;> rfl

theorem found_concat_parse (table : Table) (ops : List SessionOp) (value : Json) :
    found table (ops ++ [.parse value]) =
      found table ops ++ [table.fragments (queries ops).length (Session.taken value)] := by
  rw [found, queries_append, found, List.mapIdx_append]
  simp [queries, query?]

theorem found_concat_other (table : Table) {ops : List SessionOp} {op : SessionOp}
    (other : op.query? = none) : found table (ops ++ [op]) = found table ops := by
  rw [found, queries_append, found]
  simp [queries, other]

/-- A reading is older than another if fewer queries were read before it. -/
theorem exists_of_mem_found {table : Table} {ops : List SessionOp} {fragments : List Fragment}
    (mem : fragments ∈ found table ops) :
    ∃ run < (queries ops).length, ∃ query, fragments = table.fragments run query := by
  obtain ⟨run, inRange, rfl⟩ := List.mem_mapIdx.mp mem
  exact ⟨run, inRange, _, rfl⟩

end SessionOp

namespace Session

open SessionOp

variable {s : Session} {op : SessionOp}

/-- The session after an operation, which is passed over if it fails. -/
def advance (s : Session) (op : SessionOp) : Session :=
  match s.step op with
  | .ok next => next
  | .error _ => s

theorem run_concat (s : Session) (ops : List SessionOp) (op : SessionOp) :
    s.run (ops ++ [op]) = (s.run ops).advance op := run_append s ops [op]

theorem advance_eq_or (s : Session) (op : SessionOp) :
    s.advance op = s ∨ s.step op = .ok (s.advance op) := by
  unfold advance
  cases s.step op with
  | ok next => exact .inr rfl
  | error e => exact .inl rfl

/-- How a session goes on after an operation that reads no query: table and counts stay, and unless
the session is cleared, so do its query and the fragments that are not removed. -/
structure GoesOn (s next : Session) (op : SessionOp) : Prop where
  table : next.table = s.table
  counts : next.counts = s.counts
  readings : next.readings = s.readings
  cleared : op = .clear → next.chips = [] ∧ next.query = .str ""
  kept : op ≠ .clear → next.query = s.query ∧
    next.chips = s.chips.filter fun f => !op.removed?.toList.contains f.id

/-- An operation that touches none of this. -/
theorem GoesOn.idle {next : Session} (table : next.table = s.table)
    (counts : next.counts = s.counts) (readings : next.readings = s.readings)
    (query : next.query = s.query) (chips : next.chips = s.chips) (other : op ≠ .clear)
    (removes : op.removed? = none) :
    GoesOn s next op :=
  ⟨table, counts, readings, fun cleared => absurd cleared other, fun _ =>
    ⟨query, by simp [chips, removes]⟩⟩

/-- The step: no operation but a reading adds anything. -/
theorem advance_other (s : Session) (other : op.query? = none) : GoesOn s (s.advance op) op := by
  cases op with
  | parse value => cases other
  | remove id =>
      refine ⟨rfl, rfl, rfl, nofun, fun _ => ⟨rfl, ?_⟩⟩
      refine List.filter_congr fun f _ => ?_
      by_cases same : f.id = id <;> simp [removed?, same]
  | clear => exact ⟨rfl, rfl, rfl, fun _ => ⟨rfl, rfl⟩, fun kept => absurd rfl kept⟩
  | reset => exact .idle rfl rfl rfl rfl rfl nofun rfl
  | setContentType value =>
      rcases s.advance_eq_or (.setContentType value) with same | stepped
      · rw [same]
        exact .idle rfl rfl rfl rfl rfl nofun rfl
      · obtain ⟨medium, _, next⟩ := exists_of_map_ok stepped
        rw [← next]
        exact .idle rfl rfl rfl rfl rfl nofun rfl
  | buildPatch =>
      rcases s.advance_eq_or .buildPatch with same | stepped
      · rw [same]
        exact .idle rfl rfl rfl rfl rfl nofun rfl
      · obtain ⟨_, _, next⟩ := exists_of_map_ok stepped
        rw [← next]
        exact .idle rfl rfl rfl rfl rfl nofun rfl
  | apply =>
      rcases s.advance_eq_or .apply with same | stepped
      · rw [same]
        exact .idle rfl rfl rfl rfl rfl nofun rfl
      · obtain ⟨⟨patch, after⟩, applied, next⟩ := exists_of_map_ok stepped
        obtain ⟨_, filters, contentType, adopted, _⟩ := apply_eq applied
        rw [← next, adopted]
        exact .idle rfl rfl rfl rfl rfl nofun rfl

/-- The run up to now: a session that has read nothing yet knows afterwards how many queries it has
read, and counts what was found in them. -/
theorem run_counts {table : Table} (ofTable : s.table = table) (fresh : s.readings = 0)
    (counts : s.counts.Counts []) (ops : List SessionOp) :
    (s.run ops).table = table ∧ (s.run ops).readings = (queries ops).length ∧
      (s.run ops).counts.Counts ((found table ops).flatten.map Fragment.kind) := by
  induction ops using List.reverseRecOn with
  | nil => exact ⟨ofTable, fresh, counts⟩
  | append_singleton ops op ih =>
      obtain ⟨ofTable, readings, counts⟩ := ih
      rw [run_concat]
      cases reads : op.query? with
      | none =>
          have goesOn := (s.run ops).advance_other reads
          rw [goesOn.table, goesOn.counts, goesOn.readings, found_concat_other table reads,
            queries_append, show queries [op] = [] by simp [queries, reads], List.append_nil]
          exact ⟨ofTable, readings, counts⟩
      | some query =>
          obtain ⟨value, rfl⟩ : ∃ value, op = .parse value := by
            cases op <;> first | exact ⟨_, rfl⟩ | cases reads
          refine ⟨ofTable, ?_, ?_⟩
          · rw [queries_append, List.length_append, ← readings]
            rfl
          · rw [found_concat_parse, List.flatten_append, List.map_append, ← readings, ← ofTable]
            have counted := counts.addAll
              (((s.run ops).table.fragments (s.run ops).readings (taken value)).map Fragment.kind)
            rw [ofTable] at counted ⊢
            simpa [advance, step, parse, taken, ofTable] using counted

/-- The run since the latest reading: unless the session is cleared, its query stays, and the
fragments that are not removed. -/
theorem run_silent (s : Session) {ops : List SessionOp} (silent : queries ops = []) :
    (SessionOp.clear ∈ ops → (s.run ops).chips = [] ∧ (s.run ops).query = .str "") ∧
      (SessionOp.clear ∉ ops → (s.run ops).query = s.query ∧
        (s.run ops).chips = s.chips.filter fun f => !(removals ops).contains f.id) := by
  induction ops using List.reverseRecOn with
  | nil =>
      refine ⟨nofun, fun _ => ⟨rfl, ?_⟩⟩
      simp [removals, run]
  | append_singleton ops op ih =>
      rw [queries_append, List.append_eq_nil_iff] at silent
      obtain ⟨before, reads⟩ := silent
      have other : op.query? = none := by
        cases read : op.query? with
        | none => rfl
        | some query => simp [queries, read] at reads
      obtain ⟨cleared, kept⟩ := ih before
      have goesOn := (s.run ops).advance_other other
      rw [run_concat]
      by_cases clears : op = .clear
      · exact ⟨fun _ => goesOn.cleared clears, fun never => absurd (by simp [clears]) never⟩
      · obtain ⟨query, chips⟩ := goesOn.kept clears
        rw [query, chips]
        constructor
        · intro mem
          have inOps : SessionOp.clear ∈ ops := by simpa [Ne.symm clears] using mem
          obtain ⟨none, empty⟩ := cleared inOps
          exact ⟨by rw [none]; rfl, empty⟩
        · intro never
          obtain ⟨same, left⟩ := kept fun mem => never (List.mem_append_left _ mem)
          refine ⟨same, ?_⟩
          rw [left, List.filter_filter, removals_concat]
          refine List.filter_congr fun f _ => ?_
          simp [Bool.and_comm]

/-- Removing a fragment that is not there changes nothing. -/
theorem remove_eq_self {id : FragmentId} (absent : ∀ f ∈ s.chips, f.id ≠ id) : s.remove id = s := by
  have same : withoutFragment s.chips id = s.chips :=
    List.filter_eq_self.mpr fun f mem => by simpa using absent f mem
  rw [remove, same]

/-- Whatever was asked of a session, it has counted everything that was ever found, kind by kind.
Before the first reading it has neither a query nor fragments.  After the latest reading it has that
query and what was found in it, without the fragments removed since, in their order; or nothing, if
it was cleared since.  To remove what an older reading has found changes nothing. -/
theorem run_history {table : Table} {contentType : Json} {fields : Json.Fields}
    (started : Session.start table contentType fields = .ok s) (ops : List SessionOp) :
    (s.run ops).counts.Counts ((found table ops).flatten.map Fragment.kind) ∧
      (queries ops = [] → (s.run ops).chips = [] ∧ (s.run ops).query = .str "") ∧
      ∀ before value after, ops = before ++ .parse value :: after → queries after = [] →
        (SessionOp.clear ∈ after → (s.run ops).chips = [] ∧ (s.run ops).query = .str "") ∧
          (SessionOp.clear ∉ after → (s.run ops).query = taken value ∧
            (s.run ops).chips =
              (table.fragments (queries before).length (taken value)).filter fun f =>
                !(removals after).contains f.id) ∧
          ∀ older ∈ found table before, ∀ f ∈ older, (s.run ops).remove f.id = s.run ops := by
  obtain ⟨medium, _, rfl⟩ := exists_of_map_ok started
  let fresh : Session := ⟨table, .text medium.name, .str "", [], .ofFields fields, {}, 0⟩
  have ofTable : fresh.table = table := rfl
  have counted := run_counts ofTable rfl Tally.counts_empty
  change (fresh.run ops).counts.Counts _ ∧ _
  refine ⟨(counted ops).2.2, fun silent => ?_, ?_⟩
  · obtain ⟨cleared, kept⟩ := run_silent _ silent
    by_cases clears : SessionOp.clear ∈ ops
    · exact cleared clears
    · obtain ⟨query, chips⟩ := kept clears
      exact ⟨chips, query⟩
  · rintro before value after rfl silent
    obtain ⟨ofTable, readings, _⟩ := counted before
    rw [run_append, run_cons]
    generalize fresh.run before = t at *
    obtain ⟨cleared, kept⟩ := run_silent (t.parse value) silent
    have chips : (t.parse value).chips =
        table.fragments (queries before).length (taken value) := by
      rw [← ofTable, ← readings]
      rfl
    rw [chips] at kept
    refine ⟨cleared, kept, fun older mem f inOlder => remove_eq_self fun g left => ?_⟩
    obtain ⟨run, earlier, query, rfl⟩ := exists_of_mem_found mem
    have latest : g ∈ table.fragments (queries before).length (taken value) := by
      by_cases clears : SessionOp.clear ∈ after
      · change g ∈ ((t.parse value).run after).chips at left
        rw [(cleared clears).1] at left
        cases left
      · change g ∈ ((t.parse value).run after).chips at left
        rw [(kept clears).2] at left
        exact List.mem_of_mem_filter left
    exact (Table.id_ne_of_readings (Nat.ne_of_lt earlier) inOlder latest).symm

/-- One of two fragments is removed, and a patch is applied after which no other one is made.  The
other fragment stays, and the query stays; both fragments stay counted. -/
theorem run_history_removed :
    ∃ s, Session.start animeTable (.str "movie") [] = .ok s ∧
      let left := s.run [.parse (.str "anime anime"), .remove (.made .contentType 0 0 0), .apply,
        .apply]
      left.chips.map Fragment.start? = [some 6] ∧ left.query = .str "anime anime" ∧
        left.counts.entries.lookup .contentType = some 2 := by
  have started : Session.start animeTable (.str "movie") [] = .ok _ := rfl
  obtain ⟨counts, _, latest⟩ := run_history started
    [.parse (.str "anime anime"), .remove (.made .contentType 0 0 0), .apply, .apply]
  obtain ⟨query, chips⟩ := (latest [] _ _ rfl rfl).2.1 (by simp)
  refine ⟨_, started, ?_, query, ?_⟩
  · rw [chips]
    decide +kernel
  · rw [counts]
    decide +kernel

end Session

end FilmQuery
