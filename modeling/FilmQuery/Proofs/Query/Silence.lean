/-
# Rules that stay silent

An occurrence gives a fragment, is rejected, or fails; only the first takes characters out of the
text.  A rule that never comes to the first (`Rule.IsSilent`) could as well not be in the table:
every other rule is tried on the same text without it, and only the numbers of the rules behind it
change (`closingGap`).  Nor does it matter to the fragments how an occurrence is passed over: an
extractor that fails where it used to reject (`Rule.refusing`) is heard in the warnings only.

Both say something about a table with other rules, so they begin with which lists of rules are
tables (`fault?_eq_none_iff`).
-/
import FilmQuery.Proofs.Query.Stages

namespace FilmQuery

open PlacedText

/-- Rules are taken up if each can have a value, their keys differ, and none of these was seen
before. -/
theorem faultAfter?_eq_none_iff {seen : List (Rule.Key × Nat)} {index : Nat}
    {rules : List Rule} :
    faultAfter? seen index rules = none ↔
      (∀ rule ∈ rules, rule.hasValue = true) ∧ (rules.map Rule.key).Nodup ∧
        ∀ rule ∈ rules, seen.lookup rule.key = none := by
  induction rules generalizing seen index with
  | nil => simp [faultAfter?]
  | cons rule rules ih =>
      rw [faultAfter?]
      by_cases valued : rule.hasValue = true
      · cases found : seen.lookup rule.key with
        | some earlier =>
            refine iff_of_false (by simp [valued]) ?_
            rintro ⟨_, _, unseen⟩
            have absent := unseen rule List.mem_cons_self
            rw [found] at absent
            cases absent
        | none =>
            have unseen (other : Rule) :
                List.lookup other.key ((rule.key, index) :: seen) = none ↔
                  rule.key ≠ other.key ∧ seen.lookup other.key = none := by
              rw [List.lookup_cons]
              by_cases same : other.key = rule.key
              · simp [same]
              · simp [beq_eq_false_iff_ne.mpr same, Ne.symm same]
            simp only [valued, Bool.not_true, Bool.false_eq_true, if_false, ih, unseen,
              List.forall_mem_cons, true_and, List.map_cons, List.nodup_cons, List.mem_map, found]
            constructor
            · rintro ⟨values, nodup, apart⟩
              refine ⟨values, ⟨?_, nodup⟩, fun other mem => (apart other mem).2⟩
              rintro ⟨other, mem, same⟩
              exact (apart other mem).1 same.symm
            · rintro ⟨values, ⟨fresh, nodup⟩, apart⟩
              refine ⟨values, nodup, fun other mem => ⟨?_, apart other mem⟩⟩
              exact fun same => fresh ⟨other, mem, same.symm⟩
      · simp [valued]

/-- A list of rules is a table if and only if each rule can have a value and no two are the same. -/
theorem fault?_eq_none_iff {rules : List Rule} :
    fault? rules = none ↔
      (∀ rule ∈ rules, rule.hasValue = true) ∧ (rules.map Rule.key).Nodup := by
  simp [fault?, faultAfter?_eq_none_iff]

/-- Some rules of a table are a table. -/
theorem fault?_sublist {rules part : List Rule} (sub : part.Sublist rules)
    (faultless : fault? rules = none) : fault? part = none := by
  obtain ⟨values, nodup⟩ := fault?_eq_none_iff.mp faultless
  exact fault?_eq_none_iff.mpr
    ⟨fun rule mem => values rule (sub.subset mem), nodup.sublist (sub.map Rule.key)⟩

section Renumbering

/-- The identifier of a fragment whose rule has another number. -/
def FragmentId.renumbered (number : Nat → Nat) : FragmentId → FragmentId
  | .made kind rule run place => .made kind (number rule) run place
  | .named name => .named name

/-- The same fragment, made by a rule of another number. -/
def Fragment.renumbered (number : Nat → Nat) (f : Fragment) : Fragment :=
  { f with id := f.id.renumbered number }

variable (number : Nat → Nat)

/-- The number of a rule shows in the identifiers of its fragments and nowhere else. -/
theorem Rule.fragment?_renumbered (rule : Rule) (index run : Nat) (text : PlacedText)
    (finding : Occurrence × Verdict) :
    rule.fragment? (number index) run text finding =
      (rule.fragment? index run text finding).map (Fragment.renumbered number) := by
  obtain ⟨m, verdict⟩ := finding
  cases verdict <;> rfl

/-- A rule reads the same under another number. -/
theorem Rule.read_renumbered (rule : Rule) (index run : Nat) (text : PlacedText) :
    (rule.read (number index) run text).fragments =
        (rule.read index run text).fragments.map (Fragment.renumbered number) ∧
      (rule.read (number index) run text).rest = (rule.read index run text).rest := by
  refine ⟨?_, rfl⟩
  rw [Rule.read, Rule.read, List.map_filterMap]
  exact List.filterMap_congr fun finding _ =>
    rule.fragment?_renumbered number index run text finding

/-- Rules read the same under other numbers, as long as these follow one another. -/
theorem readRules_renumbered (run index : Nat) (rules : List Rule)
    (follows : ∀ i ≤ rules.length, number (index + i) = number index + i) (text : PlacedText) :
    (readRules run (number index) rules text).fragments =
        (readRules run index rules text).fragments.map (Fragment.renumbered number) ∧
      (readRules run (number index) rules text).rest = (readRules run index rules text).rest := by
  induction rules generalizing index text with
  | nil => exact ⟨rfl, rfl⟩
  | cons rule rules ih =>
      have next : number (index + 1) = number index + 1 := follows 1 (Nat.succ_pos _)
      have later : ∀ i ≤ rules.length, number (index + 1 + i) = number (index + 1) + i := by
        intro i le
        rw [Nat.add_assoc, follows (1 + i) (by simpa [Nat.add_comm] using le), next, Nat.add_assoc]
      obtain ⟨fragments, rest⟩ := rule.read_renumbered number index run text
      obtain ⟨fragmentsLater, restLater⟩ := ih (index + 1) later (rule.read index run text).rest
      rw [next] at fragmentsLater restLater
      simp only [readRules, rest, fragments, fragmentsLater, restLater, List.map_append, and_self]

end Renumbering

/-- What rules leave is what the later ones leave of what the earlier ones have left. -/
theorem readRules_append_rest (run index : Nat) (first later : List Rule) (text : PlacedText) :
    (readRules run index (first ++ later) text).rest =
      (readRules run (index + first.length) later (readRules run index first text).rest).rest := by
  induction first generalizing index text with
  | nil => rfl
  | cons rule first ih =>
      simp only [List.cons_append, readRules, ih, List.length_cons, Nat.add_assoc, Nat.add_comm 1]

/-- A rule is silent on a text if each of its occurrences there takes no character, is rejected, or
fails. -/
def Rule.IsSilent (rule : Rule) (text : PlacedText) : Prop :=
  ∀ m ∈ rule.shape.find text.chars,
    m.isEmpty = true ∨ rule.judge m = .rejected ∨ ∃ fault, rule.judge m = .failed fault

/-- A silent rule makes no fragment and leaves the text as it is. -/
theorem Rule.IsSilent.read {rule : Rule} {text : PlacedText} (silent : rule.IsSilent text)
    (index run : Nat) :
    (rule.read index run text).fragments = [] ∧ (rule.read index run text).rest = text := by
  have passed : ∀ finding ∈ rule.findings text,
      rule.fragment? index run text finding = none ∧ span? finding = none := by
    intro finding mem
    obtain ⟨m, found, rfl⟩ := List.mem_map.mp mem
    obtain ⟨inText, taken⟩ := List.mem_filter.mp found
    rcases silent m inText with empty | rejected | ⟨fault, failed⟩
    · simp [empty] at taken
    · rw [rejected]
      exact ⟨rfl, rfl⟩
    · rw [failed]
      exact ⟨rfl, rfl⟩
  have spans : (rule.findings text).filterMap span? = [] :=
    List.filterMap_eq_nil_iff.mpr fun finding mem => (passed finding mem).2
  refine ⟨List.filterMap_eq_nil_iff.mpr fun finding mem => (passed finding mem).1, ?_⟩
  rw [Rule.read, spans]
  rfl

/-- The number of a rule after the one of number `gap` was deleted. -/
def closingGap (gap number : Nat) : Nat := if gap < number then number - 1 else number

/-- Without a silent rule the others read the same, those behind it under a number less. -/
theorem readRules_eraseIdx {rules : List Rule} {k : Nat} {rule : Rule}
    (ruleAt : rules[k]? = some rule) (run : Nat) {text : PlacedText}
    (silent : rule.IsSilent (readRules run 0 (rules.take k) text).rest) :
    (readRules run 0 (rules.eraseIdx k) text).fragments =
        (readRules run 0 rules text).fragments.map (Fragment.renumbered (closingGap k)) ∧
      (readRules run 0 (rules.eraseIdx k) text).rest = (readRules run 0 rules text).rest := by
  obtain ⟨inRange, rfl⟩ := List.getElem?_eq_some_iff.mp ruleAt
  have parts : rules = rules.take k ++ rules[k] :: rules.drop (k + 1) := by
    rw [List.getElem_cons_drop, List.take_append_drop]
  have length : (rules.take k).length = k := List.length_take_of_le (Nat.le_of_lt inRange)
  -- In front of the gap no number changes, behind it each is one less.
  have before := readRules_renumbered (closingGap k) run 0 (rules.take k)
    (fun i le => by
      rw [length] at le
      simp [closingGap, Nat.not_lt.mpr le]) text
  have behind := readRules_renumbered (closingGap k) run (k + 1) (rules.drop (k + 1))
    (fun i _ => by
      simp only [closingGap]
      rw [if_pos (by omega), if_pos (Nat.lt_succ_self k)]
      omega) (readRules run 0 (rules.take k) text).rest
  have start : closingGap k 0 = 0 := by simp [closingGap]
  have gap : closingGap k (k + 1) = k := by simp [closingGap]
  rw [start] at before
  rw [gap] at behind
  obtain ⟨nothing, same⟩ := silent.read k run
  have whole : (readRules run 0 rules text).fragments =
        (readRules run 0 (rules.take k) text).fragments ++
          (readRules run (k + 1) (rules.drop (k + 1))
            (readRules run 0 (rules.take k) text).rest).fragments ∧
      (readRules run 0 rules text).rest =
        (readRules run (k + 1) (rules.drop (k + 1))
          (readRules run 0 (rules.take k) text).rest).rest := by
    constructor
    · conv_lhs => rw [parts, readRules_append, length, Nat.zero_add]
      simp only [readRules, nothing, same, List.nil_append]
    · conv_lhs => rw [parts, readRules_append_rest, length, Nat.zero_add]
      simp only [readRules, same]
  rw [List.eraseIdx_eq_take_drop_succ, readRules_append, readRules_append_rest, length,
    Nat.zero_add, whole.1, whole.2, List.map_append, ← before.1, ← behind.1, ← behind.2]
  exact ⟨rfl, rfl⟩

section Refusing

/-- The extractor that fails as told on occurrences that it would reject. -/
def Extractor.refusing (faults : Occurrence → Option Fault) (extractor : Extractor) : Extractor :=
  fun m =>
    match extractor m, faults m with
    | .ok .nothing, some fault => .error fault
    | outcome, _ => outcome

/-- The rule whose extractor fails as told on occurrences that it would reject. -/
def Rule.refusing (faults : Occurrence → Option Fault) (rule : Rule) : Rule :=
  { rule with extractor := rule.extractor.map (Extractor.refusing faults) }

variable (faults : Occurrence → Option Fault) (rule : Rule)

@[simp]
theorem Rule.key_refusing : (rule.refusing faults).key = rule.key := rfl

@[simp]
theorem Rule.hasValue_refusing : (rule.refusing faults).hasValue = rule.hasValue := by
  simp [Rule.hasValue, Rule.refusing]

/-- What is extracted is as before, but that extracting may fail where it gave no value. -/
theorem Extractor.refusing_eq_or (extractor : Extractor) (m : Occurrence) :
    extractor.refusing faults m = extractor m ∨
      extractor m = .ok .nothing ∧ ∃ fault, extractor.refusing faults m = .error fault := by
  unfold refusing
  split
  next fault nothing _ => exact .inr ⟨nothing, fault, rfl⟩
  next => exact .inl rfl

theorem Rule.extract_refusing (m : Occurrence) :
    (rule.refusing faults).extract m = rule.extract m ∨
      rule.extract m = .ok .nothing ∧ ∃ fault, (rule.refusing faults).extract m = .error fault := by
  unfold Rule.extract Rule.refusing
  cases rule.extractor with
  | none => exact .inl rfl
  | some extractor => exact extractor.refusing_eq_or faults m

/-- An occurrence is judged as before, but that it may fail where it was rejected. -/
theorem Rule.judge_refusing (m : Occurrence) :
    (rule.refusing faults).judge m = rule.judge m ∨
      rule.judge m = .rejected ∧ ∃ fault, (rule.refusing faults).judge m = .failed fault := by
  unfold Rule.judge
  rcases rule.extract_refusing faults m with same | ⟨nothing, fault, failed⟩
  · rw [same]
    exact .inl rfl
  · rw [nothing, failed]
    exact .inr ⟨rfl, fault, rfl⟩

/-- The rule makes the same fragments and leaves the same text, and only warns more. -/
theorem Rule.read_refusing (index run : Nat) (text : PlacedText) :
    ((rule.refusing faults).read index run text).fragments =
        (rule.read index run text).fragments ∧
      ((rule.refusing faults).read index run text).rest = (rule.read index run text).rest ∧
      (rule.read index run text).warnings.Sublist
        ((rule.refusing faults).read index run text).warnings := by
  have same (m : Occurrence) :
      (rule.refusing faults).fragment? index run text (m, (rule.refusing faults).judge m) =
          rule.fragment? index run text (m, rule.judge m) ∧
        span? (m, (rule.refusing faults).judge m) = span? (m, rule.judge m) := by
    rcases rule.judge_refusing faults m with same | ⟨rejected, fault, failed⟩
    · rw [same]
      cases rule.judge m <;> exact ⟨rfl, rfl⟩
    · rw [rejected, failed]
      exact ⟨rfl, rfl⟩
  simp only [Rule.read, Rule.findings, List.filterMap_map, Function.comp_def]
  refine ⟨List.filterMap_congr fun m _ => (same m).1, ?_, ?_⟩
  · exact congrArg (excise · text) (List.filterMap_congr fun m _ => (same m).2)
  · change (List.filterMap _ ((rule.shape.find text.chars).filter _)).Sublist
      (List.filterMap _ ((rule.shape.find text.chars).filter _))
    induction (rule.shape.find text.chars).filter (!·.isEmpty) with
    | nil => exact .slnil
    | cons m found ih =>
        rcases rule.judge_refusing faults m with same | ⟨rejected, fault, failed⟩
        · simp only [List.filterMap_cons, same]
          cases rule.judge m with
          | accepted value label => exact ih
          | rejected => exact ih
          | failed fault => exact ih.cons_cons _
        · simp only [List.filterMap_cons, rejected, failed, warning?]
          exact ih.cons _

/-- Rules that fail where they would reject make the same fragments, and only warn more. -/
theorem readRules_refusing (faults : Nat → Occurrence → Option Fault) (run index : Nat)
    (rules : List Rule) (text : PlacedText) :
    let stricter := rules.mapIdx fun k rule => rule.refusing (faults k)
    (readRules run index stricter text).fragments = (readRules run index rules text).fragments ∧
      (readRules run index stricter text).rest = (readRules run index rules text).rest ∧
      (readRules run index rules text).warnings.Sublist
        (readRules run index stricter text).warnings := by
  induction rules generalizing faults index text with
  | nil => exact ⟨rfl, rfl, .slnil⟩
  | cons rule rules ih =>
      obtain ⟨fragments, rest, warnings⟩ := rule.read_refusing (faults 0) index run text
      obtain ⟨later, left, warned⟩ :=
        ih (fun k => faults (k + 1)) (index + 1) (rule.read index run text).rest
      simp only [List.mapIdx_cons, readRules, fragments, rest]
      exact ⟨congrArg _ later, left, warnings.append warned⟩

end Refusing

/-- The text that a rule of a table is tried on: what the rules before it have left of the query. -/
def Table.leftFor (table : Table) (run k : Nat) (query : List Char) : PlacedText :=
  (readRules run 0 (table.rules.take k) (ofText query)).rest

/-- A rule that is silent on the text it is tried on can be deleted: what is left is a table, and it
makes the same fragments of the query, but that behind the deleted rule the numbers of the rules are
one less.  And whatever the rules reject, they could as well fail on it: the fragments stay as they
are, and warnings are only added. -/
theorem read_of_silence (table : Table) (run : Nat) (query : List Char) :
    (∀ k rule, table.rules[k]? = some rule →
      (query.all Text.isBlank = false → rule.IsSilent (table.leftFor run k query)) →
        ∃ shorter : Table, shorter.rules = table.rules.eraseIdx k ∧
          (shorter.read run query).fragments =
            (table.read run query).fragments.map (Fragment.renumbered (closingGap k)) ∧
          (shorter.read run query).rest = (table.read run query).rest) ∧
      ∀ faults : Nat → Occurrence → Option Fault,
        ∃ stricter : Table,
          stricter.rules = table.rules.mapIdx (fun k rule => rule.refusing (faults k)) ∧
            (stricter.read run query).fragments = (table.read run query).fragments ∧
            (stricter.read run query).rest = (table.read run query).rest ∧
            (table.read run query).warnings.Sublist (stricter.read run query).warnings := by
  constructor
  · intro k rule ruleAt silent
    refine ⟨⟨_, fault?_sublist (List.eraseIdx_sublist _ k) table.faultless⟩, rfl, ?_⟩
    cases blank : query.all Text.isBlank with
    | true => simp [Table.read, blank]
    | false =>
        have erased := readRules_eraseIdx ruleAt run (silent blank)
        simpa [Table.read, blank] using erased
  · intro faults
    have faultless : fault? (table.rules.mapIdx fun k rule => rule.refusing (faults k)) = none := by
      obtain ⟨values, nodup⟩ := fault?_eq_none_iff.mp table.faultless
      refine fault?_eq_none_iff.mpr ⟨?_, ?_⟩
      · intro rule mem
        obtain ⟨k, inRange, rfl⟩ := List.mem_mapIdx.mp mem
        rw [Rule.hasValue_refusing]
        exact values _ (List.getElem_mem inRange)
      · have keys : (table.rules.mapIdx fun k rule => rule.refusing (faults k)).map Rule.key =
            table.rules.map Rule.key := List.ext_getElem (by simp) fun k _ _ => by simp
        rwa [keys]
    refine ⟨⟨_, faultless⟩, rfl, ?_⟩
    cases blank : query.all Text.isBlank with
    | true => simp [Table.read, blank]
    | false =>
        have refused := readRules_refusing faults run 0 table.rules (ofText query)
        simpa [Table.read, blank] using refused

/-- The rule for lowest ratings rejects a rating beyond the scale, so it can be deleted; the genre
behind the rating is then found by a rule of a lower number. -/
theorem read_of_silence_beyondScale : ∃ rule,
    Table.default.rules[6]? = some rule ∧
      rule.IsSilent (Table.default.leftFor 0 6 "rated above 11 horror".toList) ∧
      ∃ shorter : Table, shorter.rules = Table.default.rules.eraseIdx 6 ∧
        (shorter.read 0 "rated above 11 horror".toList).fragments =
          (Table.default.read 0 "rated above 11 horror".toList).fragments.map
            (Fragment.renumbered (closingGap 6)) ∧
        (shorter.read 0 "rated above 11 horror".toList).rest =
          (Table.default.read 0 "rated above 11 horror".toList).rest := by
  have rejected : ∀ m ∈ DefaultRules.all[6].shape.find
      (Table.default.leftFor 0 6 "rated above 11 horror".toList).chars,
      m.isEmpty = true ∨ DefaultRules.all[6].judge m = .rejected := by
    decide +kernel
  have silent : DefaultRules.all[6].IsSilent
      (Table.default.leftFor 0 6 "rated above 11 horror".toList) :=
    fun m found => (rejected m found).imp id .inl
  exact ⟨_, rfl, silent,
    (read_of_silence Table.default 0 "rated above 11 horror".toList).1 6 _ rfl fun _ => silent⟩

end FilmQuery
