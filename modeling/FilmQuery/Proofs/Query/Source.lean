/-
# Every fragment stands on its own text

The source of a fragment, read alone, gives that fragment and no other.  The rule that made it
finds its phrase again (`claims_alone`), and no earlier rule has anything to claim there
(`claims_eq_nil`).  That holds even of a pair of years in a range of ratings: no word was taken out
inside of the pair, so it would have been found, and taken out, in the query itself.
-/
import FilmQuery.Proofs.Query.Shedding
import FilmQuery.Proofs.Query.Turns
import FilmQuery.Proofs.Rule.YearPair

namespace FilmQuery

open Text (isWord face)
open PlacedText

namespace Rule

/-- What a rule makes of an occurrence, it makes of the same occurrence elsewhere. -/
theorem claim?_elsewhere {rule : Rule} {index run : Nat} {text : PlacedText} {m : Occurrence}
    {f : Fragment} (made : rule.claim? index run text m = some f) (run' : Nat)
    (text' : PlacedText) {start stop : Nat} (taken : start ≠ stop)
    (placed : rule.extract { m with start, stop } = rule.extract m) :
    rule.claim? index run' text' { m with start, stop } =
      some
        { f with
          id := .made rule.kind index run' ((text'.placesBetween start stop).head?.getD 0)
          offsets := text'.placesBetween start stop } := by
  have shown (value : Value) : label rule.kind value { m with start, stop } =
      label rule.kind value m := by
    cases rule.kind <;> rfl
  unfold claim? at made ⊢
  rw [placed]
  cases extracted : rule.extract m with
  | error fault => simp [extracted] at made
  | ok value =>
      cases labelled : label rule.kind value m with
      | error fault => simp [extracted, labelled] at made
      | ok text =>
          simp only [extracted, labelled, shown] at made ⊢
          split at made
          · cases made
          next something =>
            cases made
            have accepted : ¬ (start = stop ∨ value = .nothing) := by
              rintro (empty | nothing)
              · exact taken empty
              · exact something (.inr nothing)
            rw [if_neg accepted]

end Rule

namespace DefaultRules

variable {query : List Char} {run j k : Nat} {rule later : Rule}

/-- If whole words are taken out between two rules, then a linked phrase that the second rule is
tried on stands in the text of the first one with the same neighbours. -/
theorem exists_split_triedOn (le : j ≤ k)
    (whole : ∀ i < k, ∀ rule, all[i]? = some rule → ∀ chars, ∀ m ∈ rule.shape.find chars,
      m.IsWhole chars)
    {before phrase behind : PlacedText} (linked : phrase.IsLinked)
    (split : triedOn run k query = before ++ (phrase ++ behind)) :
    ∃ left right, triedOn run j query = left ++ (phrase ++ right) ∧
      left.getLast? = before.getLast? ∧ right.head? = behind.head? := by
  induction k, le using Nat.le_induction generalizing before behind with
  | base => exact ⟨before, behind, split, rfl, rfl⟩
  | succ k le ih =>
      have wholeBefore := fun i (lt : i < k) => whole i (Nat.lt_succ_of_lt lt)
      cases ruleAt : all[k]? with
      | none =>
          have same : triedOn run (k + 1) query = triedOn run k query := by
            rw [triedOn, List.take_add_one, getElem?_parts, ruleAt]
            simp [triedOn]
          exact ih wholeBefore (same.symm.trans split)
      | some rule =>
          have sheds := sheds_without k run (sorted_triedOn run k query)
            (whole k (Nat.lt_succ_self k) rule ruleAt _)
          rw [triedOn_succ ruleAt] at split
          obtain ⟨left, right, splitHere, last, head⟩ := sheds.exists_split linked split
          obtain ⟨left', right', splitFirst, last', head'⟩ := ih wholeBefore splitHere
          exact ⟨left', right', splitFirst, last'.trans last, head'.trans head⟩

/-- A pair of years in a range of ratings was there when pairs of years were looked for, and it was
found. -/
theorem exists_phrase_of_yearRange (lt : j < k) (first : all[j]? = some rule)
    (second : all[k]? = some later) (years : rule.kind = .yearRange)
    (ratings : later.kind = .ratingRange) {m n : Occurrence}
    (found : m ∈ later.shape.find (triedOn run k query).chars)
    (inside : n ∈ rule.shape.find m.text) :
    ∃ left phrase right, triedOn run j query = left ++ (phrase ++ right) ∧
      phrase.chars = n.text ∧ phrase ⊆ triedOn run k query ∧
      { n with start := left.length, stop := left.length + n.text.length } ∈
        rule.shape.find (triedOn run j query).chars := by
  have member := List.mem_of_getElem? first
  have memberLater := List.mem_of_getElem? second
  have pattern : rule.pattern = .yearPair := by
    have regular := isRegular_of_mem member
    simp only [isRegular, years, Bool.and_eq_true, beq_iff_eq] at regular
    exact regular.2
  have regular := isRegular_of_mem memberLater
  simp only [isRegular, ratings, Bool.and_eq_true, beq_iff_eq] at regular
  obtain ⟨_, ⟨seals, once⟩, noDigit⟩ := regular
  have drawn : later.pattern.hasOutline = true := by
    have distinct := areDistinct_of_lt lt first second
    simp only [areDistinct, Bool.and_eq_true] at distinct
    exact distinct.1.1.2
  rw [find_eq_occurrences memberLater] at found
  rw [find_eq_occurrences member, pattern] at inside
  have lies := (later.pattern.occurrences_inOrder true _).liesIn m found
  have liesInside := (Pattern.yearPair.occurrences_inOrder true _).liesIn n inside
  have whole := Pattern.isWhole_of_mem Pattern.asksForWords_yearPair inside
  have spelled := (Pattern.spells_of_mem_occurrences inside).1
  obtain ⟨piece, pieceChars, parts⟩ := exists_piece lies
  rw [← pieceChars] at liesInside
  obtain ⟨phrase, phraseChars, partsInside⟩ := exists_piece liesInside
  have linked : phrase.IsLinked := by
    refine ⟨?_, ?_, ?_⟩
    · rw [opens_eq_chars, phraseChars]
      exact whole.opens
    · rw [closes_eq_chars, phraseChars]
      exact whole.closes
    · have chain := Pattern.isChain_of_spells_yearPair spelled
      rwa [← phraseChars, chars, List.isChain_map] at chain
  have split : triedOn run k query =
      ((triedOn run k query).take m.start ++ piece.take n.start) ++
        (phrase ++ (piece.drop n.stop ++ (triedOn run k query).drop m.stop)) := by
    refine parts.trans ?_
    conv_lhs => rw [partsInside]
    simp only [List.append_assoc]
  obtain ⟨left, right, splitFirst, last, head⟩ := exists_split_triedOn (Nat.le_of_lt lt)
    (fun i lt rule ruleAt chars m found => isWhole_of_lt lt ruleAt second ratings found) linked
    split
  refine ⟨left, phrase, right, splitFirst, phraseChars, ?_, ?_⟩
  · rw [split]
    intro x mem
    exact List.mem_append_right _ (List.mem_append_left _ mem)
  · have before : ∀ c ∈ left.chars.getLast?, isWord c = false ∧ face c ≠ '-' := by
      obtain ⟨c, lastBefore, free⟩ := Pattern.exists_before_yearPair drawn once noDigit
        (Pattern.spells_of_mem_occurrences found).1 inside
      rw [← pieceChars, chars, ← List.map_take, List.getLast?_map] at lastBefore
      obtain ⟨x, lastX, rfl⟩ := Option.map_eq_some_iff.mp lastBefore
      rw [chars, List.getLast?_map, last, List.getLast?_append, lastX]
      rintro _ ⟨⟩
      exact free
    have behind : right.chars.head?.any isWord = false := by
      rw [← opens_eq_chars, opens, head, ← opens]
      apply opens_append_eq_false
      · rw [opens_eq_chars, chars, List.map_drop, ← chars, pieceChars]
        exact whole.behind
      · rw [opens_eq_chars, chars, List.map_drop]
        exact Pattern.isWord_behind_eq_false seals found
    have there := Pattern.mem_occurrences_yearPair inside before behind
    rw [find_eq_occurrences member, pattern, splitFirst, chars_append, chars_append, phraseChars]
    rwa [length_chars] at there

/-- A pair of years that would be accepted in a range of ratings has been taken out before. -/
theorem claim?_eq_none_of_yearRange (lt : j < k) (first : all[j]? = some rule)
    (second : all[k]? = some later) (years : rule.kind = .yearRange)
    (ratings : later.kind = .ratingRange) {m n : Occurrence}
    (found : m ∈ later.shape.find (triedOn run k query).chars)
    (inside : n ∈ rule.shape.find m.text) (run' : Nat) :
    rule.claim? j run' (ofText m.text) n = none := by
  obtain ⟨left, phrase, right, split, phraseChars, sub, there⟩ :=
    exists_phrase_of_yearRange lt first second years ratings found inside
  cases made : rule.claim? j run' (ofText m.text) n with
  | none => rfl
  | some f =>
      exfalso
      have member := List.mem_of_getElem? first
      have lies := (rule.shape.find_inOrder m.text).liesIn n inside
      have nonempty : phrase ≠ [] := by
        rintro rfl
        have length := lies.length_text
        rw [← phraseChars] at length
        have order := lies.start_le_stop
        exact (Rule.eq_of_claim? made).1 (by simp [PlacedText.chars] at length; omega)
      have length : phrase.length = n.text.length := by rw [← phraseChars, length_chars]
      have taken : left.length ≠ left.length + n.text.length := by
        have positive := List.length_pos_iff.mpr nonempty
        omega
      have madeThere := Rule.claim?_elsewhere made run (triedOn run j query) taken
        (extract_placed rule member n _ _)
      have claimed := List.mem_filterMap.mpr ⟨_, there, madeThere⟩
      obtain ⟨x, others, rfl⟩ := List.exists_cons_of_ne_nil nonempty
      apply not_mem_offsets_of_mem_triedOn lt first claimed (sub List.mem_cons_self)
      show x.1 ∈ placesBetween (triedOn run j query) _ _
      rw [split, ← length, placesBetween_append]
      exact List.mem_cons_self

/-- In the source of a fragment no rule before the one that made it has anything to claim. -/
theorem claims_eq_nil (lt : j < k) (first : all[j]? = some rule) (second : all[k]? = some later)
    {m : Occurrence} (found : m ∈ later.shape.find (triedOn run k query).chars) (run' : Nat) :
    rule.claims j run' (ofText m.text) = [] := by
  rw [Rule.claims, chars_ofText]
  rcases find_eq_nil_or lt first second found with none | ⟨years, ratings⟩
  · rw [none, List.filterMap_nil]
  · exact List.filterMap_eq_nil_iff.mpr fun n inside =>
      claim?_eq_none_of_yearRange lt first second years ratings found inside run'

/-- The rule that made a fragment makes it again of the source, and nothing else. -/
theorem claims_alone (member : rule ∈ all) {text : PlacedText} {m : Occurrence}
    (found : m ∈ rule.shape.find text.chars) {f : Fragment}
    (made : rule.claim? k run text m = some f) (run' : Nat) :
    rule.claims k run' (ofText m.text) =
      [{ f with
          id := .made rule.kind k run' 0
          offsets := List.range m.text.length }] := by
  have lies := (rule.shape.find_inOrder text.chars).liesIn m found
  have taken : 0 ≠ m.text.length := by
    have apart := (Rule.eq_of_claim? made).1
    have order := lies.start_le_stop
    rw [lies.length_text]
    omega
  rw [Rule.claims, chars_ofText, find_alone member found, List.filterMap_cons,
    Rule.claim?_elsewhere made run' _ taken (extract_placed rule member m _ _),
    placesBetween_ofText, List.filterMap_nil]
  cases m.text.length with
  | zero => rfl
  | succ length => rw [List.range_succ_eq_map]; rfl

end DefaultRules

/-- Rules that claim nothing leave the text to the next one. -/
theorem readParts_skip (run' index : Nat) {k : Nat} {rules : List Rule} {rule : Rule}
    {text : PlacedText} (ruleAt : rules[k]? = some rule)
    (none : ∀ j < k, ∀ earlier, rules[j]? = some earlier →
      earlier.claims (index + j) run' text = []) :
    (readParts run' index rules text).flatten =
      rule.claims (index + k) run' text ++
        (readParts run' (index + k + 1) (rules.drop (k + 1))
          (text.without (rule.claims (index + k) run' text))).flatten := by
  induction rules generalizing index k with
  | nil => cases ruleAt
  | cons first rules ih =>
      cases k with
      | zero =>
          cases ruleAt
          rfl
      | succ k =>
          have here := none 0 (Nat.succ_pos k) first rfl
          have later := ih (index + 1) ruleAt fun j lt earlier earlierAt => by
            rw [Nat.add_assoc, Nat.add_comm 1]
            exact none (j + 1) (Nat.succ_lt_succ lt) earlier earlierAt
          rw [Nat.add_zero] at here
          rw [readParts, here, without_nil, List.flatten_cons, List.nil_append, later,
            List.drop_succ_cons, Nat.add_right_comm, Nat.add_assoc index k 1]

/-- Every fragment stands on its own text: its source, read alone, gives the same fragment, which
covers the source from its first character to its last one, and nothing else. -/
theorem fragments_source (run run' : Nat) (query : List Char) {f : Fragment}
    (mem : f ∈ (Table.default.read run query).fragments) :
    ∃ k, f.rule? = some k ∧
      (Table.default.read run' f.source.toList).fragments =
        [{ f with id := .made f.kind k run' 0, offsets := List.range f.source.length }] := by
  obtain ⟨k, rule, ruleAt, inPart⟩ := DefaultRules.mem_fragments_iff.mp mem
  have member := List.mem_of_getElem? ruleAt
  obtain ⟨m, found, made⟩ := List.mem_filterMap.mp inPart
  obtain ⟨_, _, source, _⟩ := Rule.eq_of_claim? made
  refine ⟨k, rule?_of_mem_claims inPart, ?_⟩
  have alone := DefaultRules.claims_alone member found made run'
  have nothingLeft : (ofText m.text).without (rule.claims k run' (ofText m.text)) = [] := by
    rw [alone]
    apply List.filter_eq_nil_iff.mpr
    intro x mem
    have place := List.mem_map_of_mem (f := Prod.fst) mem
    change x.1 ∈ (ofText m.text).places at place
    rw [places_ofText] at place
    simp [place]
  have later : (readParts run' (k + 1) (DefaultRules.all.drop (k + 1)) []).flatten = [] :=
    DefaultRules.readParts_blank (fun rule mem => List.mem_of_mem_drop mem) run' (k + 1) rfl
  have skip : ∀ j < k, ∀ earlier, DefaultRules.all[j]? = some earlier →
      earlier.claims (0 + j) run' (ofText m.text) = [] := by
    intro j lt earlier earlierAt
    rw [Nat.zero_add]
    exact DefaultRules.claims_eq_nil lt earlierAt ruleAt found run'
  rw [DefaultRules.read_fragments, source, String.toList_ofList, readParts_skip run' 0 ruleAt skip,
    Nat.zero_add, nothingLeft, later, alone, String.length_ofList]
  simp only [source, (Rule.said_of_claim? made).1, List.append_nil]

/-- A phrase that was torn apart is read again from what is left of it. -/
theorem fragments_source_torn :
    ∃ f ∈ (Table.default.read 0 "in movies 2020".toList).fragments, f.source = "in  2020" ∧
      ∃ k, f.rule? = some k ∧
        (Table.default.read 1 f.source.toList).fragments =
          [{ f with id := .made f.kind k 1 0, offsets := List.range f.source.length }] := by
  have claimed : (DefaultRules.all[4]?.map fun rule =>
      rule.claims 4 0 (DefaultRules.triedOn 0 4 "in movies 2020".toList)) =
        some
          [{ id := .made .yearExact 4 0 0
             kind := .yearExact
             value := .years ⟨some "2020", some "2020"⟩
             label := "Year: 2020"
             source := "in  2020"
             offsets := [0, 1, 2, 9, 10, 11, 12, 13] }] := by
    decide +kernel
  have mem := DefaultRules.mem_fragments_of_claims claimed (List.mem_singleton_self _)
  exact ⟨_, mem, rfl, fragments_source 0 1 "in movies 2020".toList mem⟩

end FilmQuery
