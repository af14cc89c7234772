/-
# Taking phrases out of a text

What a rule does to the text is said here without spans: its fragments stand on pieces of the text,
and what is left is the text without the places that they claim.  A place occurs once in a text, so
cutting at the right positions and leaving out the right places come to the same.
-/
import FilmQuery.Query
import Mathlib.Data.List.Basic

namespace FilmQuery

namespace PlacedText

/-- The text without the places that some fragments claim. -/
def without (text : PlacedText) (fragments : List Fragment) : PlacedText :=
  text.filter fun (place, _) => !fragments.any (·.offsets.contains place)

theorem mem_without {text : PlacedText} {fragments : List Fragment} {x : Nat × Char} :
    x ∈ text.without fragments ↔ x ∈ text ∧ ∀ f ∈ fragments, x.1 ∉ f.offsets := by
  simp [without]

@[simp]
theorem without_nil (text : PlacedText) : text.without [] = text := by
  simp [without]

theorem without_append (text : PlacedText) (first later : List Fragment) :
    text.without (first ++ later) = (text.without first).without later := by
  simp only [without, List.filter_filter, List.any_append, Bool.not_or]
  exact List.filter_congr fun _ _ => Bool.and_comm _ _

theorem without_sublist (text : PlacedText) (fragments : List Fragment) :
    (text.without fragments).Sublist text :=
  List.filter_sublist

/-- The places of the characters ascend. -/
def Sorted (text : PlacedText) : Prop := text.places.Pairwise (· < ·)

theorem Sorted.sublist {text part : PlacedText} (sorted : text.Sorted) (sub : part.Sublist text) :
    part.Sorted :=
  List.Pairwise.sublist (sub.map Prod.fst) sorted

theorem placesBetween_drop (text : PlacedText) (n start stop : Nat) :
    PlacedText.placesBetween (text.drop n) start stop =
      text.placesBetween (n + start) (n + stop) := by
  simp only [placesBetween, List.drop_drop, Nat.add_sub_add_left]

/-- The text before a span, the span, and the text behind it. -/
theorem take_append_between_append_drop (text : PlacedText) {start stop : Nat}
    (order : start ≤ stop) :
    text.take start ++ ((text.drop start).take (stop - start) ++ text.drop stop) = text := by
  have behind : text.drop stop = (text.drop start).drop (stop - start) := by
    rw [List.drop_drop, Nat.add_sub_cancel' order]
  rw [behind, List.take_append_drop, List.take_append_drop]

/-- The places of a span are those of characters that stand in it. -/
theorem exists_mem_of_mem_placesBetween {text : PlacedText} {start stop place : Nat}
    (mem : place ∈ text.placesBetween start stop) :
    ∃ c, (place, c) ∈ text.drop start ∧ (place, c) ∈ text.take stop := by
  obtain ⟨⟨_, c⟩, inSpan, rfl⟩ := List.mem_map.mp mem
  refine ⟨c, List.mem_of_mem_take inSpan, ?_⟩
  rw [List.take_drop] at inSpan
  by_cases order : start ≤ stop
  · rw [Nat.add_sub_cancel' order] at inSpan
    exact List.mem_of_mem_drop inSpan
  · rw [Nat.sub_eq_zero_of_le (Nat.le_of_not_le order), Nat.add_zero] at inSpan
    simp at inSpan

/-- Places behind a cut come after those before it. -/
theorem Sorted.lt {text : PlacedText} (sorted : text.Sorted) {n i j : Nat} {c d : Char}
    (before : (i, c) ∈ text.take n) (behind : (j, d) ∈ text.drop n) : i < j := by
  have parts : ((text.take n).map Prod.fst ++ (text.drop n).map Prod.fst).Pairwise (· < ·) := by
    rw [← List.map_append, List.take_append_drop]
    exact sorted
  exact (List.pairwise_append.mp parts).2.2 _ (List.mem_map_of_mem before) _
    (List.mem_map_of_mem behind)

/-- The places of a span are not those of characters before it. -/
theorem not_mem_placesBetween_of_mem_take {text : PlacedText} (sorted : text.Sorted)
    {n start stop : Nat} {x : Nat × Char} (mem : x ∈ text.take n) (le : n ≤ start) :
    x.1 ∉ text.placesBetween start stop := by
  intro inSpan
  obtain ⟨c, behind, _⟩ := exists_mem_of_mem_placesBetween inSpan
  exact Nat.lt_irrefl _ (sorted.lt (List.take_subset_take_left _ le mem) behind)

/-- The places of a span are not those of characters behind it. -/
theorem not_mem_placesBetween_of_mem_drop {text : PlacedText} (sorted : text.Sorted)
    {n start stop : Nat} {x : Nat × Char} (mem : x ∈ text.drop n) (le : stop ≤ n) :
    x.1 ∉ text.placesBetween start stop := by
  intro inSpan
  obtain ⟨c, _, before⟩ := exists_mem_of_mem_placesBetween inSpan
  exact Nat.lt_irrefl _ (sorted.lt before (List.drop_subset_drop_left _ le mem))

/-- Whether a place lies in none of some spans of a text whose first character is the one numbered
`done`. -/
def avoids (text : PlacedText) (done : Nat) (spans : List (Nat × Nat)) (place : Nat) : Bool :=
  spans.all fun span => !(text.placesBetween (span.1 - done) (span.2 - done)).contains place

/-- Spans behind a cut are the same spans of what comes behind it. -/
theorem avoids_drop (text : PlacedText) {done cut : Nat} (reached : done ≤ cut)
    {spans : List (Nat × Nat)} (behind : ∀ span ∈ spans, cut ≤ span.1 ∧ span.1 ≤ span.2)
    (place : Nat) :
    avoids (text.drop (cut - done)) cut spans place = text.avoids done spans place := by
  rw [Bool.eq_iff_iff, avoids, avoids, List.all_eq_true, List.all_eq_true]
  refine forall₂_congr fun span mem => ?_
  obtain ⟨start_le, stop_le⟩ := behind span mem
  rw [placesBetween_drop, show cut - done + (span.1 - cut) = span.1 - done by omega,
    show cut - done + (span.2 - cut) = span.2 - done by omega]

/-- What comes before a cut lies in no span behind it. -/
theorem avoids_of_mem_take {text : PlacedText} (sorted : text.Sorted) {done cut : Nat}
    {spans : List (Nat × Nat)} (behind : ∀ span ∈ spans, cut ≤ span.1) {x : Nat × Char}
    (mem : x ∈ text.take (cut - done)) : text.avoids done spans x.1 = true := by
  refine List.all_eq_true.mpr fun span inSpans => ?_
  have start_le := behind span inSpans
  have outside : x.1 ∉ text.placesBetween (span.1 - done) (span.2 - done) :=
    not_mem_placesBetween_of_mem_take sorted mem (by omega)
  simpa using outside

end PlacedText

open PlacedText

/-- Cutting spans out leaves the characters whose places lie in none of them. -/
theorem exciseFrom_eq_filter (done : Nat) (spans : List (Nat × Nat)) (text : PlacedText)
    (within : ∀ span ∈ spans, done ≤ span.1 ∧ span.1 ≤ span.2)
    (apart : spans.Pairwise fun first later => first.2 ≤ later.1) (sorted : text.Sorted) :
    exciseFrom done spans text = text.filter fun x => text.avoids done spans x.1 := by
  induction spans generalizing done text with
  | nil => simp [exciseFrom, avoids]
  | cons span spans ih =>
      obtain ⟨start, stop⟩ := span
      obtain ⟨⟨reached, order⟩, withinLater⟩ := List.forall_mem_cons.mp within
      obtain ⟨behind, apartLater⟩ := List.pairwise_cons.mp apart
      have laterWithin : ∀ span ∈ spans, stop ≤ span.1 ∧ span.1 ≤ span.2 := fun span mem =>
        ⟨behind span mem, (withinLater span mem).2⟩
      have before : (text.take (start - done)).filter
          (fun x => text.avoids done ((start, stop) :: spans) x.1) = text.take (start - done) := by
        refine List.filter_eq_self.mpr fun x mem => avoids_of_mem_take sorted ?_ mem
        exact List.forall_mem_cons.mpr
          ⟨Nat.le_refl _, fun span mem => Nat.le_trans order (laterWithin span mem).1⟩
      have inside : ((text.drop (start - done)).take (stop - done - (start - done))).filter
          (fun x => text.avoids done ((start, stop) :: spans) x.1) = [] := by
        refine List.filter_eq_nil_iff.mpr fun x mem => ?_
        have inSpan : x.1 ∈ text.placesBetween (start - done) (stop - done) :=
          List.mem_map_of_mem mem
        simp [avoids, inSpan]
      have after : exciseFrom stop spans (text.drop (stop - done)) =
          (text.drop (stop - done)).filter
            (fun x => text.avoids done ((start, stop) :: spans) x.1) := by
        rw [ih stop _ laterWithin apartLater (sorted.sublist (List.drop_sublist _ _))]
        refine List.filter_congr fun x mem => ?_
        have outside : x.1 ∉ text.placesBetween (start - done) (stop - done) :=
          not_mem_placesBetween_of_mem_drop sorted mem (Nat.le_refl _)
        rw [avoids_drop text (Nat.le_trans reached order) laterWithin]
        simp [avoids, outside]
      have parts := text.take_append_between_append_drop (Nat.sub_le_sub_right order done)
      calc
        _ = text.take (start - done) ++ exciseFrom stop spans (text.drop (stop - done)) := rfl
        _ = (text.take (start - done) ++ ((text.drop (start - done)).take
              (stop - done - (start - done)) ++ text.drop (stop - done))).filter
                fun x => text.avoids done ((start, stop) :: spans) x.1 := by
          rw [List.filter_append, List.filter_append, before, inside, after, List.nil_append]
        _ = _ := by rw [parts]

/-- A fragment stands on characters of a text: it has their places and their letters, in the order
of the text. -/
def Fragment.StandsOn (f : Fragment) (text : PlacedText) : Prop :=
  ∃ piece : PlacedText, piece.Sublist text ∧ piece ≠ [] ∧
    f.offsets = piece.places ∧ f.source.toList = piece.chars

theorem Fragment.StandsOn.mono {f : Fragment} {part text : PlacedText} (stands : f.StandsOn part)
    (sub : part.Sublist text) : f.StandsOn text := by
  obtain ⟨piece, ofPart, nonempty, offsets, source⟩ := stands
  exact ⟨piece, ofPart.trans sub, nonempty, offsets, source⟩

/-- One fragment lies before another if all its characters do. -/
def Fragment.Before (f g : Fragment) : Prop := ∀ i ∈ f.offsets, ∀ j ∈ g.offsets, i < j

namespace Rule

/-- The fragment that a rule makes of an occurrence in a text. There is none if the occurrence takes
no character, has no value, or cannot be labelled. -/
def claim? (rule : Rule) (index run : Nat) (text : PlacedText) (m : Occurrence) :
    Option Fragment :=
  match rule.extract m with
  | .error _ => none
  | .ok value =>
    match label rule.kind value m with
    | .error _ => none
    | .ok label =>
      if m.start = m.stop ∨ value = .nothing then none
      else
        let offsets := text.placesBetween m.start m.stop
        some
          { id := .made rule.kind index run (offsets.head?.getD 0)
            kind := rule.kind
            value, label, offsets
            source := String.ofList m.text }

/-- The fragments that a rule makes of a text, from left to right. -/
def claims (rule : Rule) (index run : Nat) (text : PlacedText) : List Fragment :=
  (rule.shape.find text.chars).filterMap (rule.claim? index run text)

variable {rule : Rule} {index run : Nat} {text : PlacedText} {m : Occurrence} {f : Fragment}

/-- A fragment belongs to its rule and has the text and the places of its occurrence. -/
theorem eq_of_claim? (made : rule.claim? index run text m = some f) :
    m.start ≠ m.stop ∧ f.offsets = text.placesBetween m.start m.stop ∧
      f.source = String.ofList m.text ∧
      f.id = .made rule.kind index run (f.offsets.head?.getD 0) := by
  unfold claim? at made
  split at made
  · simp at made
  · split at made
    · simp at made
    · split at made
      · simp at made
      next taken =>
        cases made
        exact ⟨fun empty => taken (.inl empty), rfl, rfl, rfl⟩

/-- A fragment is of the kind of its rule, and says what was extracted. -/
theorem said_of_claim? (made : rule.claim? index run text m = some f) :
    f.kind = rule.kind ∧ rule.extract m = .ok f.value ∧ f.value ≠ .nothing ∧
      label rule.kind f.value m = .ok f.label := by
  unfold claim? at made
  split at made
  · simp at made
  next value extracted =>
    split at made
    · simp at made
    next shown labelled =>
      split at made
      · simp at made
      next taken =>
        cases made
        exact ⟨rfl, extracted, fun nothing => taken (.inr nothing), labelled⟩

/-- What becomes of an occurrence with a value depends on its label alone. -/
theorem judge_of_extract {value : Value} (extracted : rule.extract m = .ok value)
    (nonempty : value ≠ .nothing) :
    rule.judge m =
      match label rule.kind value m with
      | .ok text => .accepted value text
      | .error fault => .failed fault := by
  unfold judge
  rw [extracted]
  split
  next failed => simp at failed
  next nothing => exact absurd (Except.ok.inj nothing) nonempty
  next other _ same =>
    cases Except.ok.inj same
    rfl

/-- Judging and cutting to size make the fragments that a rule claims. -/
theorem claim?_eq (rule : Rule) (index run : Nat) (text : PlacedText) (m : Occurrence) :
    rule.claim? index run text m =
      if m.isEmpty then none else rule.fragment? index run text (m, rule.judge m) := by
  have empty : m.isEmpty = true ↔ m.start = m.stop := by simp [Occurrence.isEmpty]
  unfold claim?
  cases extracted : rule.extract m with
  | error fault => simp [judge, extracted, fragment?]
  | ok value =>
      by_cases nothing : value = .nothing
      · subst nothing
        cases labelled : label rule.kind .nothing m <;>
          simp [judge, extracted, labelled, fragment?]
      · rw [judge_of_extract extracted nothing]
        cases labelled : label rule.kind value m <;>
          simp [labelled, fragment?, nothing, empty]

/-- The span of a claimed occurrence is the one that is cut out. -/
theorem span?_judge (rule : Rule) (index run : Nat) (text : PlacedText) (m : Occurrence) :
    (if m.isEmpty then none else span? (m, rule.judge m)) =
      (rule.claim? index run text m).map fun _ => (m.start, m.stop) := by
  rw [claim?_eq]
  cases m.isEmpty <;> cases rule.judge m <;> rfl

/-- Reading a text by a rule gives the fragments that the rule makes of it. -/
theorem read_fragments (rule : Rule) (index run : Nat) (text : PlacedText) :
    (rule.read index run text).fragments = rule.claims index run text := by
  simp only [read, findings, claims, List.filterMap_map, List.filterMap_filter]
  refine List.filterMap_congr fun m _ => ?_
  rw [claim?_eq]
  cases m.isEmpty <;> rfl

/-- What a rule cuts out are the spans of its claimed occurrences. -/
theorem filterMap_span?_findings (rule : Rule) (index run : Nat) (text : PlacedText) :
    (rule.findings text).filterMap span? = (rule.shape.find text.chars).filterMap fun m =>
      (rule.claim? index run text m).map fun _ => (m.start, m.stop) := by
  simp only [findings, List.filterMap_map, List.filterMap_filter]
  refine List.filterMap_congr fun m _ => ?_
  rw [← span?_judge]
  cases m.isEmpty <;> rfl

/-- What a rule cuts out are spans of its occurrences. -/
theorem exists_of_mem_spans {span : Nat × Nat}
    (mem : span ∈ (rule.findings text).filterMap span?) :
    ∃ m ∈ rule.shape.find text.chars, span = (m.start, m.stop) := by
  rw [rule.filterMap_span?_findings 0 0 text] at mem
  obtain ⟨m, found, made⟩ := List.mem_filterMap.mp mem
  obtain ⟨_, _, rfl⟩ := Option.map_eq_some_iff.mp made
  exact ⟨m, found, rfl⟩

theorem spans_apart (rule : Rule) (text : PlacedText) :
    ((rule.findings text).filterMap span?).Pairwise fun first later => first.2 ≤ later.1 := by
  rw [rule.filterMap_span?_findings 0 0 text]
  refine List.pairwise_filterMap.mpr
    ((rule.shape.find_inOrder text.chars).apart.imp fun behind => ?_)
  intro first madeFirst later madeLater
  obtain ⟨_, _, rfl⟩ := Option.map_eq_some_iff.mp madeFirst
  obtain ⟨_, _, rfl⟩ := Option.map_eq_some_iff.mp madeLater
  exact behind

/-- Reading a text by a rule leaves the text without the places that its fragments claim. -/
theorem read_rest (rule : Rule) (index run : Nat) (text : PlacedText)
    (sorted : text.Sorted) :
    (rule.read index run text).rest = text.without (rule.claims index run text) := by
  have within : ∀ span ∈ (rule.findings text).filterMap span?, 0 ≤ span.1 ∧ span.1 ≤ span.2 := by
    intro span mem
    obtain ⟨m, found, rfl⟩ := exists_of_mem_spans mem
    exact ⟨Nat.zero_le _, ((rule.shape.find_inOrder text.chars).liesIn m found).start_le_stop⟩
  rw [read, excise, exciseFrom_eq_filter 0 _ text within (rule.spans_apart text) sorted,
    rule.filterMap_span?_findings index run text]
  refine List.filter_congr fun x _ => ?_
  rw [Bool.eq_iff_iff]
  simp only [avoids, List.all_eq_true, List.mem_filterMap, Option.map_eq_some_iff, Nat.sub_zero,
    claims, Bool.not_eq_true', List.any_eq_false, List.contains_eq_mem, decide_eq_true_eq,
    decide_eq_false_iff_not]
  constructor
  · rintro outside f ⟨m, found, made⟩
    rw [(eq_of_claim? made).2.1]
    exact outside _ ⟨m, found, f, made, rfl⟩
  · rintro outside _ ⟨m, found, f, made, rfl⟩
    have apart := outside f ⟨m, found, made⟩
    rwa [(eq_of_claim? made).2.1] at apart

/-- Every fragment of a rule stands on a piece of the text. -/
theorem standsOn_of_mem_claims (mem : f ∈ rule.claims index run text) : f.StandsOn text := by
  obtain ⟨m, found, made⟩ := List.mem_filterMap.mp mem
  obtain ⟨taken, offsets, source, _⟩ := eq_of_claim? made
  have lies := (rule.shape.find_inOrder text.chars).liesIn m found
  have order := lies.start_le_stop
  have within := lies.stop_le_length
  refine ⟨(text.drop m.start).take (m.stop - m.start),
    (List.take_sublist _ _).trans (List.drop_sublist _ _), ?_, offsets, ?_⟩
  · rw [chars, List.length_map] at within
    rw [← List.length_pos_iff, List.length_take, List.length_drop]
    omega
  · rw [source, String.toList_ofList, lies.text_eq, chars, chars, List.map_take, List.map_drop]

/-- The fragments of a rule lie one before the other. -/
theorem claims_pairwise_before (sorted : text.Sorted) :
    (rule.claims index run text).Pairwise Fragment.Before := by
  refine List.pairwise_filterMap.mpr
    ((rule.shape.find_inOrder text.chars).apart.imp fun behind => ?_)
  intro f madeF g madeG i memI j memJ
  rw [(eq_of_claim? madeF).2.1] at memI
  rw [(eq_of_claim? madeG).2.1] at memJ
  obtain ⟨_, _, inFirst⟩ := exists_mem_of_mem_placesBetween memI
  obtain ⟨_, inLater, _⟩ := exists_mem_of_mem_placesBetween memJ
  exact sorted.lt (List.take_subset_take_left _ behind inFirst) inLater

end Rule

/-- What rules make one after the other, one of them claims in what was left to it. -/
theorem exists_claim_of_mem_readRules {run index : Nat} {rules : List Rule} {text : PlacedText}
    {f : Fragment} (mem : f ∈ (readRules run index rules text).fragments) :
    ∃ rule ∈ rules, ∃ k left m, rule.claim? k run left m = some f := by
  induction rules generalizing index text with
  | nil => cases mem
  | cons rule rules ih =>
      rcases List.mem_append.mp mem with here | later
      · rw [Rule.read_fragments] at here
        obtain ⟨m, _, made⟩ := List.mem_filterMap.mp here
        exact ⟨rule, List.mem_cons_self, index, text, m, made⟩
      · obtain ⟨other, among, claimed⟩ := ih later
        exact ⟨other, List.mem_cons_of_mem _ among, claimed⟩

end FilmQuery
