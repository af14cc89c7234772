/-
# How gaps are filled is insignificant, but for three phrases

Two queries that differ in how their gaps are filled have the same pieces.  A rule of record finds
the same occurrences in both and accepts the same ones, so it cuts out the same pieces, and what is
left of the queries differs in how its gaps are filled again (`text_cutFrom`).  Three phrases are
only known with a single space.  If the queries agree on the gaps in these, so do their rests, for
what is cut out before are whole words (`keeps_cutFrom`).
-/
import FilmQuery.Proofs.Query.Turns
import FilmQuery.Proofs.Rule.Respaced

namespace FilmQuery

open Respacing (text)
open Text (isBlank isWord)

/-- Takes spans out of a list whose first item is the one numbered `done`. -/
def cutFrom {α : Type} (done : Nat) : List (Nat × Nat) → List α → List α
  | [], items => items
  | (start, stop) :: spans, items =>
    items.take (start - done) ++ cutFrom stop spans (items.drop (stop - done))

theorem chars_exciseFrom (done : Nat) (spans : List (Nat × Nat)) (text : PlacedText) :
    (exciseFrom done spans text).chars = cutFrom done spans text.chars := by
  induction spans generalizing done text with
  | nil => rfl
  | cons span spans ih =>
      simp only [exciseFrom, cutFrom, PlacedText.chars, List.map_append, List.map_take,
        ← List.map_drop] at ih ⊢
      rw [ih]

/-- Spans in ascending order that do not overlap, from some place on. -/
structure AscendFrom (done : Nat) (spans : List (Nat × Nat)) : Prop where
  within : ∀ span ∈ spans, done ≤ span.1 ∧ span.1 ≤ span.2
  apart : spans.Pairwise fun first later => first.2 ≤ later.1

theorem AscendFrom.tail {done start stop : Nat} {spans : List (Nat × Nat)}
    (ascend : AscendFrom done ((start, stop) :: spans)) :
    done ≤ start ∧ start ≤ stop ∧ AscendFrom stop spans := by
  obtain ⟨⟨reached, order⟩, later⟩ := List.forall_mem_cons.mp ascend.within
  obtain ⟨behind, apart⟩ := List.pairwise_cons.mp ascend.apart
  exact ⟨reached, order, fun span mem => ⟨behind span mem, (later span mem).2⟩, apart⟩

namespace Respacing

variable {respaced : Bool} {r : Respacing} {done : Nat} {spans : List (Nat × Nat)}
  {phrases : List (List Char × List Char)}

/-- Where the characters of some pieces stand in a text. -/
def spanIn (respaced : Bool) (r : Respacing) (span : Nat × Nat) : Nat × Nat :=
  ((text respaced (r.take span.1)).length, (text respaced (r.take span.2)).length)

theorem take_text (i : Nat) :
    (text respaced r).take (text respaced (r.take i)).length = text respaced (r.take i) := by
  conv_lhs => rw [← List.take_append_drop i r, text_append]
  rw [List.take_append_drop, List.take_left]

theorem drop_text (i : Nat) :
    (text respaced r).drop (text respaced (r.take i)).length = text respaced (r.drop i) := by
  conv_lhs => rw [← List.take_append_drop i r, text_append]
  rw [List.take_append_drop, List.drop_left]

/-- Cutting pieces out is cutting their characters out. -/
theorem text_cutFrom (ascend : AscendFrom done spans) :
    cutFrom (text respaced (r.take done)).length (spans.map (r.spanIn respaced))
        (text respaced (r.drop done)) =
      text respaced (cutFrom done spans (r.drop done)) := by
  induction spans generalizing done with
  | nil => rfl
  | cons span spans ih =>
      obtain ⟨start, stop⟩ := span
      obtain ⟨reached, order, later⟩ := ascend.tail
      have rest : (r.drop done).drop (stop - done) = r.drop stop := by
        rw [List.drop_drop, Nat.add_sub_cancel' (reached.trans order)]
      rw [List.map_cons, cutFrom, spanIn, cutFrom, text_append, rest, ← ih later,
        length_between reached, length_between (reached.trans order)]
      congr 1
      · rw [text_drop_eq reached, List.take_left]
      · rw [text_drop_eq (reached.trans order), List.drop_left]

/-- If no word goes on behind what is cut out, none goes on where the text is put together. -/
theorem quiet_cutFrom (ascend : AscendFrom done spans)
    (quiet : ∀ span ∈ spans, (text false (r.drop span.2)).head?.any isWord = false)
    (before : (text false (r.drop done)).head?.any isWord = false) :
    (text false (cutFrom done spans (r.drop done))).head?.any isWord = false := by
  induction spans generalizing done with
  | nil => exact before
  | cons span spans ih =>
      obtain ⟨start, stop⟩ := span
      obtain ⟨reached, order, later⟩ := ascend.tail
      obtain ⟨here, quietLater⟩ := List.forall_mem_cons.mp quiet
      have rest : (r.drop done).drop (stop - done) = r.drop stop := by
        rw [List.drop_drop, Nat.add_sub_cancel' (reached.trans order)]
      rw [cutFrom, text_append, rest]
      by_cases empty : text false ((r.drop done).take (start - done)) = []
      · rw [empty, List.nil_append]
        exact ih later quietLater here
      · rw [text_drop_eq reached, List.head?_append_of_ne_nil _ empty] at before
        rwa [List.head?_append_of_ne_nil _ empty]

/-- Phrases are still kept when whole words are cut out. -/
theorem keeps_cutFrom (words : areWords phrases = true) (keeps : r.Keeps phrases)
    (ascend : AscendFrom done spans)
    (quiet : ∀ span ∈ spans, (text false (r.take span.1)).getLast?.any isWord = false)
    (quiet' : ∀ span ∈ spans, (text false (r.drop span.2)).head?.any isWord = false) :
    Keeps phrases (r.take done ++ cutFrom done spans (r.drop done)) := by
  induction spans generalizing done with
  | nil => rwa [cutFrom, List.take_append_drop]
  | cons span spans ih =>
      obtain ⟨start, stop⟩ := span
      obtain ⟨reached, order, later⟩ := ascend.tail
      obtain ⟨before, others⟩ := List.forall_mem_cons.mp quiet
      obtain ⟨behind, others'⟩ := List.forall_mem_cons.mp quiet'
      have onward := ih later others others'
      have front : r.take done ++ (r.drop done).take (start - done) = r.take start := by
        rw [← List.take_add, Nat.add_sub_cancel' reached]
      have rest : (r.drop done).drop (stop - done) = r.drop stop := by
        rw [List.drop_drop, Nat.add_sub_cancel' (reached.trans order)]
      have cut : r.take stop = r.take start ++ (r.drop start).take (stop - start) := by
        rw [← List.take_add, Nat.add_sub_cancel' order]
      rw [cutFrom, rest, ← List.append_assoc, front]
      rw [cut, List.append_assoc] at onward
      exact onward.cut words before (quiet_cutFrom later others' behind)

end Respacing

/-- What a fragment says: its kind and its value. -/
def Fragment.meaning (f : Fragment) : Kind × Value := (f.kind, f.value)

section Findings

variable {rule : Rule} {r : Respacing} {index run : Nat} {t t' : PlacedText}

/-- The same occurrence in two texts, and the same becomes of it. -/
def JudgedAlike (r : Respacing) (finding finding' : Occurrence × Verdict) : Prop :=
  finding.1.Respaced r finding'.1 ∧ finding'.2.value? = finding.2.value?

theorem isEmpty_respaced {m n : Occurrence} (both : m.Respaced r n) :
    m.isEmpty = false ∧ n.isEmpty = false := by
  obtain ⟨i, j, shares⟩ := both
  have apart {respaced : Bool} {m : Occurrence} (spans : m.Spans r respaced i j) :
      m.isEmpty = false := by
    have lt : (text respaced (r.take i)).length < (text respaced (r.take j)).length :=
      Respacing.length_text_take_lt shares.order shares.within
    rw [← spans.start, ← spans.stop] at lt
    exact beq_false_of_ne (Nat.ne_of_lt lt)
  exact ⟨apart shares.before, apart shares.after⟩

theorem findings_respaced
    (alike : List.Forall₂ (Occurrence.Respaced r) (rule.shape.find t.chars)
      (rule.shape.find t'.chars))
    (judged : ∀ m ∈ rule.shape.find t.chars, ∀ n, m.Respaced r n →
      (rule.judge n).value? = (rule.judge m).value?) :
    List.Forall₂ (JudgedAlike r) (rule.findings t) (rule.findings t') := by
  unfold Rule.findings
  generalize rule.shape.find t.chars = ms, rule.shape.find t'.chars = ns at alike judged
  induction alike with
  | nil => exact .nil
  | @cons m n ms ns both _ ih =>
      obtain ⟨here, later⟩ := List.forall_mem_cons.mp judged
      obtain ⟨taken, taken'⟩ := isEmpty_respaced both
      rw [List.filter_cons_of_pos (by simp [taken]), List.filter_cons_of_pos (by simp [taken'])]
      exact .cons ⟨both, here n both⟩ (ih later)

/-- Findings that are judged alike say the same. -/
theorem meanings_respaced
    (alike : List.Forall₂ (JudgedAlike r) (rule.findings t) (rule.findings t')) :
    (rule.read index run t').fragments.map Fragment.meaning =
      (rule.read index run t).fragments.map Fragment.meaning := by
  have said (t : PlacedText) : (rule.read index run t).fragments.map Fragment.meaning =
      (rule.findings t).filterMap fun finding => finding.2.value?.map (rule.kind, ·) := by
    rw [Rule.read, List.map_filterMap]
    refine List.filterMap_congr fun finding _ => ?_
    obtain ⟨m, verdict⟩ := finding
    cases verdict <;> rfl
  rw [said, said]
  generalize rule.findings t = findings, rule.findings t' = findings' at alike
  induction alike with
  | nil => rfl
  | cons same _ ih => rw [List.filterMap_cons, List.filterMap_cons, same.2, ih]

/-- Findings that are judged alike are cut out as the same pieces. -/
theorem exists_spans_respaced {findings findings' : List (Occurrence × Verdict)}
    (alike : List.Forall₂ (JudgedAlike r) findings findings') :
    ∃ spans : List (Nat × Nat), findings.filterMap Rule.span? = spans.map (r.spanIn false) ∧
      findings'.filterMap Rule.span? = spans.map (r.spanIn true) ∧
        ∀ span ∈ spans, span.1 < span.2 ∧ span.2 ≤ r.length := by
  induction alike with
  | nil => exact ⟨[], rfl, rfl, by simp⟩
  | @cons finding finding' _ _ same _ ih =>
      obtain ⟨spans, before, after, within⟩ := ih
      obtain ⟨m, verdict⟩ := finding
      obtain ⟨n, verdict'⟩ := finding'
      obtain ⟨⟨i, j, shares⟩, values⟩ := same
      rw [List.filterMap_cons, List.filterMap_cons, before, after]
      cases verdict with
      | accepted value shown =>
          cases verdict' with
          | accepted value' shown' =>
              refine ⟨(i, j) :: spans, ?_, ?_,
                List.forall_mem_cons.mpr ⟨⟨shares.order, shares.within⟩, within⟩⟩
              · rw [List.map_cons, Respacing.spanIn, ← shares.before.start, ← shares.before.stop]
                rfl
              · rw [List.map_cons, Respacing.spanIn, ← shares.after.start, ← shares.after.stop]
                rfl
          | rejected | failed _ => cases values
      | rejected | failed _ =>
          cases verdict' with
          | accepted value' shown' => cases values
          | rejected | failed _ => exact ⟨spans, rfl, rfl, within⟩

end Findings

section Reading

variable {rule : Rule} {r : Respacing} {index run : Nat} {t t' : PlacedText}

/-- What a rule of record leaves of two texts that differ in their gaps differs in its gaps. -/
theorem exists_rest_respaced (ruleAt : DefaultRules.all[index]? = some rule)
    (keeps : r.Keeps (DefaultRules.spacedFrom index)) (before : t.chars = text false r)
    (after : t'.chars = text true r)
    (alike : List.Forall₂ (JudgedAlike r) (rule.findings t) (rule.findings t')) :
    ∃ rest : Respacing, rest.Keeps (DefaultRules.spacedFrom (index + 1)) ∧
      (rule.read index run t).rest.chars = text false rest ∧
        (rule.read index run t').rest.chars = text true rest := by
  obtain ⟨spans, cut, cut', within⟩ := exists_spans_respaced alike
  have ascend : AscendFrom 0 spans := by
    refine ⟨fun span mem => ⟨Nat.zero_le _, Nat.le_of_lt (within span mem).1⟩, ?_⟩
    have apart := rule.spans_apart t
    rw [cut, List.pairwise_map] at apart
    refine apart.imp_of_mem fun inSpans _ behind => ?_
    by_contra overlap
    exact Nat.not_lt.mpr behind
      (Respacing.length_text_take_lt (Nat.lt_of_not_le overlap) (within _ inSpans).2)
  have rest {respaced : Bool} {t : PlacedText} (chars : t.chars = text respaced r)
      (cut : (rule.findings t).filterMap Rule.span? = spans.map (r.spanIn respaced)) :
      (rule.read index run t).rest.chars = text respaced (cutFrom 0 spans r) := by
    rw [Rule.read, excise, chars_exciseFrom, cut, chars]
    exact Respacing.text_cutFrom ascend
  refine ⟨cutFrom 0 spans r, ?_, rest before cut, rest after cut'⟩
  by_cases early : index < 9
  · have same : DefaultRules.spacedFrom (index + 1) = DefaultRules.spacedFrom index := by
      rw [DefaultRules.spacedFrom, DefaultRules.spacedFrom, if_pos (by omega), if_pos (by omega)]
    have whole : ∀ span ∈ spans, ∃ m : Occurrence, m.IsWhole (text false r) ∧
        r.spanIn false span = (m.start, m.stop) := by
      intro span mem
      obtain ⟨m, found, spanEq⟩ := Rule.exists_of_mem_spans (cut ▸ List.mem_map_of_mem mem)
      exact ⟨m, before ▸ DefaultRules.isWhole_of_lt_nine ruleAt early found, spanEq⟩
    rw [same]
    refine Respacing.keeps_cutFrom (DefaultRules.areWords_spacedFrom index) keeps ascend
      (fun span mem => ?_) fun span mem => ?_
    · obtain ⟨m, isWhole, spanEq⟩ := whole span mem
      have quiet := isWhole.before
      rwa [← (Prod.mk.inj spanEq).1, Respacing.take_text] at quiet
    · obtain ⟨m, isWhole, spanEq⟩ := whole span mem
      have quiet := isWhole.behind
      rwa [← (Prod.mk.inj spanEq).2, Respacing.drop_text] at quiet
  · rw [DefaultRules.spacedFrom, if_neg (by omega)]
    exact Respacing.keeps_nil _

/-- The rules of record read two texts that differ in their gaps alike. -/
theorem meanings_readRules_respaced {rules : List Rule}
    (listed : rules = DefaultRules.all.drop index)
    (keeps : r.Keeps (DefaultRules.spacedFrom index)) (before : t.chars = text false r)
    (after : t'.chars = text true r) :
    (readRules run index rules t').fragments.map Fragment.meaning =
      (readRules run index rules t).fragments.map Fragment.meaning := by
  induction rules generalizing index r t t' with
  | nil => rfl
  | cons rule rules ih =>
      have ruleAt : DefaultRules.all[index]? = some rule := by
        rw [← List.head?_drop, ← listed, List.head?_cons]
      have others : rules = DefaultRules.all.drop (index + 1) := by
        rw [← List.tail_drop, ← listed, List.tail_cons]
      have found := DefaultRules.find_respaced ruleAt keeps
      rw [← before, ← after] at found
      have alike := findings_respaced found fun m mem n both =>
        DefaultRules.judge_respaced (List.mem_of_getElem? ruleAt) mem both
      obtain ⟨rest, keepsRest, leaves, leaves'⟩ :=
        exists_rest_respaced ruleAt keeps before after alike
      rw [readRules, readRules, List.map_append, List.map_append, meanings_respaced alike,
        ih others keepsRest leaves leaves']

/-- A text is blank if and only if it is made of gaps. -/
theorem all_isBlank_text (respaced : Bool) (r : Respacing) :
    (text respaced r).all isBlank = r.all Piece.isGap := by
  induction r with
  | nil => rfl
  | cons piece r ih =>
      rw [Respacing.text_cons, List.all_append, ih, List.all_cons]
      cases piece with
      | visible c isVisible => simp [Piece.text, Piece.isGap, isVisible]
      | gap before after isGap isGap' =>
          have filled : Part.IsGap (Piece.text respaced (.gap before after isGap isGap')) :=
            Piece.isGap_text rfl respaced
          rw [List.all_eq_true.mpr filled.blank]
          rfl

end Reading

/-- Two queries that differ in how their gaps are filled have the same fragments, as far as kinds
and values go, if they have single spaces between the words of the same phrases that are only known
with these. -/
theorem fragments_respaced {r : Respacing} (keeps : r.Keeps DefaultRules.spacedPhrases)
    (run : Nat) :
    (Table.default.read run (text true r)).fragments.map Fragment.meaning =
      (Table.default.read run (text false r)).fragments.map Fragment.meaning := by
  unfold Table.read
  rw [all_isBlank_text, all_isBlank_text]
  split
  · rfl
  · exact meanings_readRules_respaced rfl keeps (PlacedText.chars_ofText _)
      (PlacedText.chars_ofText _)

/-- A text in which every blank is to be filled with other blanks. -/
def Respacing.refilled (fill : List Char) (isGap : Part.IsGap fill) (query : List Char) :
    Respacing :=
  query.map fun c =>
    if blank : isBlank c = true then
      .gap [c] fill ⟨List.cons_ne_nil c [], by simpa using blank⟩ isGap
    else .visible c ((Bool.not_eq_true _).mp blank)

theorem isGap_space : Part.IsGap [' '] :=
  ⟨List.cons_ne_nil _ _, List.all_eq_true.mp (by decide)⟩

theorem isGap_spaces : Part.IsGap [' ', ' '] :=
  ⟨List.cons_ne_nil _ _, List.all_eq_true.mp (by decide)⟩

theorem isGap_tab_break : Part.IsGap ['\t', '\n'] :=
  ⟨List.cons_ne_nil _ _, List.all_eq_true.mp (by decide)⟩

/-- A tab and a line break stand for a space, but not within a phrase only known with one. -/
theorem fragments_respaced_scienceFiction :
    ∃ r : Respacing, r.Keeps DefaultRules.spacedPhrases ∧
      text true r = "science\t\nfiction\t\nrated\t\nmore than 7".toList ∧
        text false r = "science fiction rated more than 7".toList ∧
          (Table.default.read 0 (text true r)).fragments.map Fragment.meaning =
            (Table.default.read 0 (text false r)).fragments.map Fragment.meaning := by
  have keeps : Respacing.Keeps DefaultRules.spacedPhrases
      (Respacing.refilled _ isGap_tab_break "science fiction rated ".toList ++
        Respacing.refilled _ isGap_space "more than 7".toList) := by
    decide +kernel
  exact ⟨_, keeps, by decide +kernel, by decide +kernel, fragments_respaced keeps 0⟩

/-- Without the condition on phrases it does matter how gaps are filled. -/
theorem fragments_respaced_moreThan :
    ¬ ∀ (run : Nat) (r : Respacing),
      (Table.default.read run (text true r)).fragments.map Fragment.meaning =
        (Table.default.read run (text false r)).fragments.map Fragment.meaning := by
  intro alike
  have same := alike 0 (Respacing.refilled _ isGap_space "rated more".toList ++
    (Respacing.refilled _ isGap_spaces [' '] ++ Respacing.refilled _ isGap_space "than 7".toList))
  revert same
  decide +kernel

end FilmQuery
