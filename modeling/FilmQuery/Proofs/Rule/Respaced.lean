/-
# Rules and gaps

The patterns of record take a gap of any kind where they take one, but for three phrases that they
only know with a single space (`spacedPhrases`).  What an occurrence says does not depend on its
gaps either: years and numerals have none, and a genre is looked up with single spaces
(`genreId?_respaced`).  So a rule of record judges an occurrence alike however its text is respaced
(`judge_respaced`).
-/
import FilmQuery.Proofs.Pattern.Sweeping
import FilmQuery.Proofs.Rule.Meanings
import FilmQuery.Proofs.Rule.Numerals
import FilmQuery.Proofs.Text.Lines

namespace FilmQuery

open Catalog (squeeze)
open Respacing (text)
open Text (fold isBlank trim)

namespace Respacing

variable {r : Respacing}

/-- Where there are no blanks, nothing is respaced. -/
theorem text_eq_of_visible (visible : ∀ c ∈ text false r, isBlank c = false) :
    text true r = text false r := by
  induction r with
  | nil => rfl
  | cons piece r ih =>
      obtain ⟨here, later⟩ := List.forall_mem_append.mp visible
      cases piece with
      | visible c isVisible => exact congrArg (c :: ·) (ih later)
      | gap before after isGap isGap' =>
          obtain ⟨c, others, beforeEq⟩ := List.exists_cons_of_ne_nil isGap.nonempty
          have inGap : c ∈ before := beforeEq ▸ List.mem_cons_self
          have visible := here c inGap
          rw [isGap.blank c inGap] at visible
          cases visible

/-- All gaps at the end, and what comes in front of them. -/
theorem exists_gaps_behind (r : Respacing) :
    ∃ front gaps : Respacing, r = front ++ gaps ∧ (∀ piece ∈ gaps, piece.isGap = true) ∧
      ∀ respaced, (front.text respaced).getLast?.any isBlank = false := by
  induction r using List.reverseRecOn with
  | nil => exact ⟨[], [], rfl, by simp, fun _ => rfl⟩
  | append_singleton r piece ih =>
      cases piece with
      | visible c isVisible =>
          refine ⟨_, [], (List.append_nil _).symm, by simp, fun respaced => ?_⟩
          rw [text_append]
          simpa [Piece.text] using isVisible
      | gap before after isGap isGap' =>
          obtain ⟨front, gaps, rfl, areGaps, stops⟩ := ih
          refine ⟨front, gaps ++ [.gap before after isGap isGap'], List.append_assoc _ _ _, ?_,
            stops⟩
          rintro piece mem
          rcases List.mem_append.mp mem with mem | mem
          · exact areGaps piece mem
          · rw [List.mem_singleton.mp mem]
            rfl

end Respacing

namespace Catalog

theorem squeeze_fold_gap {gap : List Char} (isGap : Part.IsGap gap) (inRun : Bool)
    (rest : List Char) : squeeze inRun (gap.flatMap fold ++ rest) =
      (if inRun then [] else [' ']) ++ squeeze true rest := by
  rw [List.flatMap_congr fun c mem => fold_of_isBlank (isGap.blank c mem), List.flatMap_singleton']
  cases inRun with
  | false => exact squeeze_gap isGap rest
  | true => exact squeeze_blanks isGap.blank rest

/-- A text that is folded and squeezed does not tell how its gaps were filled. -/
theorem squeeze_fold_respaced (inRun : Bool) (r : Respacing) :
    squeeze inRun ((text true r).flatMap fold) = squeeze inRun ((text false r).flatMap fold) := by
  induction r generalizing inRun with
  | nil => rfl
  | cons piece r ih =>
      rw [Respacing.text_cons, Respacing.text_cons, List.flatMap_append, List.flatMap_append]
      cases piece with
      | visible c isVisible => rw [squeeze_append, squeeze_append, ih]; rfl
      | gap before after isGap isGap' =>
          have filled (respaced : Bool) :
              Part.IsGap (Piece.text respaced (.gap before after isGap isGap')) :=
            Piece.isGap_text rfl respaced
          rw [squeeze_fold_gap (filled true), squeeze_fold_gap (filled false), ih]

/-- A genre is looked up alike however its name is respaced. -/
theorem genreId?_respaced (r : Respacing) : genreId? (text true r) = genreId? (text false r) := by
  obtain ⟨gaps, behind, rfl, areGaps, begins⟩ := r.exists_gaps
  obtain ⟨middle, gaps', rfl, areGaps', ends⟩ := Respacing.exists_gaps_behind behind
  have begins (respaced : Bool) : (text respaced middle).head?.any isBlank = false := by
    have head := begins respaced
    by_cases empty : text respaced middle = []
    · rw [empty]
      rfl
    · rwa [Respacing.text_append, List.head?_append_of_ne_nil _ empty] at head
  have trimmed (respaced : Bool) :
      trim (text respaced (gaps ++ (middle ++ gaps'))) = text respaced middle := by
    rw [Respacing.text_append, Respacing.text_append]
    exact Text.trim_eq (Respacing.isBlank_of_gaps areGaps) (Respacing.isBlank_of_gaps areGaps')
      (begins respaced) (ends respaced)
  rw [genreId?, genreId?, foldedGenre, foldedGenre, trimmed, trimmed, squeeze_fold_respaced]

end Catalog

/-- What is noted of a group is noted in both texts or in neither. -/
theorem lookup_saysAlike {noted noted' : List (Nat × List Char)}
    (alike : List.Forall₂ SaysAlike noted noted') (index : Nat) :
    (noted.lookup index = none ∧ noted'.lookup index = none) ∨
      ∃ part, noted.lookup index = some (text false part) ∧
        noted'.lookup index = some (text true part) := by
  induction alike with
  | nil => exact .inl ⟨rfl, rfl⟩
  | @cons said said' _ _ same _ ih =>
      obtain ⟨number, met⟩ := said
      obtain ⟨number', met'⟩ := said'
      obtain ⟨numbers, part, before, after⟩ := same
      obtain rfl : number = number' := numbers
      rw [List.lookup_cons, List.lookup_cons]
      split
      · exact .inr ⟨part, congrArg some before, congrArg some after⟩
      · exact ih

namespace Occurrence.Respaced

variable {r : Respacing} {m n : Occurrence}

theorem captures (both : m.Respaced r n) : List.Forall₂ SaysAlike m.captures n.captures := by
  obtain ⟨_, _, shares⟩ := both
  exact shares.captures

/-- A group meets the same in both texts, but for how gaps are filled. -/
theorem group (both : m.Respaced r n) (index : Nat) :
    (m.group index = n.group index ∧ ∀ met, m.group index ≠ .ok (some met)) ∨
      ∃ part, m.group index = .ok (some (Respacing.text false part)) ∧
        n.group index = .ok (some (Respacing.text true part)) := by
  obtain ⟨i, j, shares⟩ := both
  unfold Occurrence.group
  split
  · exact .inr ⟨_, congrArg (Except.ok ∘ some) shares.before.text_eq,
      congrArg (Except.ok ∘ some) shares.after.text_eq⟩
  · rw [shares.groupCount]
    split
    · exact .inl ⟨rfl, fun met same => by cases same⟩
    · rcases lookup_saysAlike shares.captures index with ⟨nothing, nothing'⟩ | ⟨part, met, met'⟩
      · rw [nothing, nothing']
        exact .inl ⟨rfl, fun met same => by cases same⟩
      · rw [met, met']
        exact .inr ⟨part, rfl, rfl⟩

/-- A group that meets no blanks meets the same in both texts. -/
theorem group_eq (both : m.Respaced r n) {index : Nat}
    (visible : ∀ met, m.group index = .ok (some met) → ∀ c ∈ met, isBlank c = false) :
    n.group index = m.group index := by
  rcases both.group index with ⟨same, _⟩ | ⟨part, met, met'⟩
  · exact same.symm
  · rw [met, met', Respacing.text_eq_of_visible (visible _ met)]

theorem lastGroup? (both : m.Respaced r n) : n.lastGroup? = m.lastGroup? := by
  have captures := both.captures
  unfold Occurrence.lastGroup?
  generalize m.captures = noted, n.captures = noted' at captures
  cases captures with
  | nil => rfl
  | cons same _ => exact congrArg some same.1.symm

end Occurrence.Respaced

namespace Extractor

variable {r : Respacing} {m n : Occurrence}

theorem groupYear_respaced {index : Nat} (same : n.group index = m.group index) :
    groupYear n index = groupYear m index := by
  rw [groupYear, groupYear, same]

theorem groupRating_respaced {index : Nat} (same : n.group index = m.group index) :
    groupRating n index = groupRating m index := by
  rw [groupRating, groupRating, same]

/-- A genre is read alike, even if its name has gaps. -/
theorem genre_respaced (both : m.Respaced r n) : genre n = genre m := by
  unfold genre
  rw [both.lastGroup?]
  rcases both.group (m.lastGroup?.getD 0) with ⟨same, _⟩ | ⟨part, met, met'⟩
  · rw [same]
  · simp only [met, met', Except.map, Option.getD_some, Catalog.genreId?_respaced]

end Extractor

/-- The value of a phrase that was accepted. -/
def Verdict.value? : Verdict → Option Value
  | .accepted value _ => some value
  | .rejected | .failed _ => none

section Judging

variable {r : Respacing} {m n : Occurrence}

/-- Whether a fragment can be shown does not depend on gaps. -/
theorem isOk_label_respaced (both : m.Respaced r n) (kind : Kind) (value : Value) :
    (label kind value n).isOk = (label kind value m).isOk := by
  have shown (title : String) : ((shownGroup n 1).map (title ++ ·)).isOk =
      ((shownGroup m 1).map (title ++ ·)).isOk := by
    unfold shownGroup
    rcases both.group 1 with ⟨same, _⟩ | ⟨part, met, met'⟩
    · rw [same]
    · rw [met, met']
      rfl
  cases kind with
  | provider => exact shown "On: "
  | genreExclude => exact shown "Exclude: "
  | contentType | genre | country => rfl
  | _ => cases value <;> rfl

theorem value?_judge_respaced {rule : Rule} (both : m.Respaced r n)
    (extracts : rule.extract n = rule.extract m) :
    (rule.judge n).value? = (rule.judge m).value? := by
  cases extracted : rule.extract m with
  | error fault => simp only [Rule.judge, extracts, extracted, Verdict.value?]
  | ok value =>
      by_cases nothing : value = .nothing
      · subst nothing
        simp only [Rule.judge, extracts, extracted]
      · have same := isOk_label_respaced both rule.kind value
        rw [Rule.judge_of_extract (extracts.trans extracted) nothing,
          Rule.judge_of_extract extracted nothing]
        generalize label rule.kind value n = shown', label rule.kind value m = shown at same
        cases shown <;> cases shown' <;> first | rfl | cases same

end Judging

namespace Pattern

/-- Digits and numerals have no blanks. -/
theorem visible_of_spells_numeral {word : List Char} (spelled : numeral.Spells true word) :
    ∀ c ∈ word, isBlank c = false := by
  have point : isBlank '.' = false := by decide
  rcases isDigits_or_of_spells spelled with digits | ⟨front, places, inFront, inPlaces, rfl⟩
  · exact fun c mem => Text.isBlank_eq_false_of_isDigit (digits.digit c mem)
  · intro c mem
    rcases List.mem_append.mp mem with mem | mem
    · exact Text.isBlank_eq_false_of_isDigit (inFront.digit c mem)
    · rcases List.mem_cons.mp mem with rfl | mem
      · exact point
      · exact Text.isBlank_eq_false_of_isDigit (inPlaces.digit c mem)

theorem visible_of_spells_year {word : List Char} (spelled : year.Spells true word) :
    ∀ c ∈ word, isBlank c = false := fun c mem =>
  Text.isBlank_eq_false_of_isDigit ((digits_of_spells_year spelled).2 c mem)

end Pattern

namespace DefaultRules

/-- The phrases that are only known with a single space between their words. -/
def spacedPhrases : List (List Char × List Char) :=
  [("more".toList, "than".toList), ("less".toList, "than".toList), ("at".toList, "least".toList)]

/-- The groups that a number is read from, whichever group was completed last. -/
def numberGroups : Kind → List Nat
  | .yearFrom | .yearTo => [2]
  | .yearExact => [1]
  | .yearRange | .ratingRange => [1, 2]
  | _ => []

/-- Whether the groups that a number is read from take no blanks. -/
def readsNumbers : Kind × Pattern → Bool
  | (kind, pattern) => pattern.groups.all fun (index, body) =>
    !(numberGroups kind).contains index || body == .year || body == .numeral

theorem spacing :
    (∀ entry ∈ records.take 10, entry.2.isTidy spacedPhrases = true) ∧
      (∀ entry ∈ records.drop 10, entry.2.isTidy [] = true) ∧
        (∀ entry ∈ records.take 9, entry.2.asksForWords = true) ∧
          ∀ entry ∈ records, readsNumbers entry = true := by
  simp only [records, all, contentTypes, years, ratings, providers, genres, regions, List.map_cons,
    List.map_nil, List.cons_append, List.nil_append, reading_shape, meaning_shape, naming_shape,
    located_shape, phrase_text, reading_kind, meaning_kind, naming_kind, located_kind, rating]
  delta Catalog.genreWords
  simp only [String.toList_append, String.reduceToList]
  decide +kernel

variable {rule : Rule} {chars : List Char} {r : Respacing} {m n : Occurrence}

/-- A number is read from the same text in both occurrences. -/
theorem group_eq_of_found (mem : rule ∈ all) (found : m ∈ rule.shape.find chars)
    (both : m.Respaced r n) {index : Nat} (reads : index ∈ numberGroups rule.kind) :
    n.group index = m.group index := by
  refine both.group_eq fun met group => ?_
  have positive : index ≠ 0 := by
    rintro rfl
    generalize rule.kind = kind at reads
    cases kind <;> simp [numberGroups] at reads
  have noted : (index, met) ∈ m.captures := by
    unfold Occurrence.group at group
    rw [if_neg positive] at group
    split at group
    · cases group
    · obtain ⟨before, behind, split, _⟩ := List.lookup_eq_some_iff.mp (Except.ok.inj group)
      simp [split]
  rw [find_eq_occurrences mem] at found
  obtain ⟨body, isGroup, spelled⟩ := (Pattern.spells_of_mem_occurrences found).2 _ noted
  have checked := List.all_eq_true.mp (spacing.2.2.2 _ (mem_records mem)) _ isGroup
  simp only [List.contains_iff_mem.mpr reads, Bool.not_true, Bool.false_or, Bool.or_eq_true,
    beq_iff_eq] at checked
  rcases checked with rfl | rfl
  · exact Pattern.visible_of_spells_year spelled
  · exact Pattern.visible_of_spells_numeral spelled

/-- The numeral at the end of a phrase is read from the same text in both occurrences. -/
theorem lastRating_respaced (mem : rule ∈ all) (rating : rule.kind.isRating = true)
    (found : m ∈ rule.shape.find chars) (both : m.Respaced r n) :
    Extractor.lastRating n = Extractor.lastRating m := by
  have solid := Pattern.solid_of_standsAlone (standsAlone_of_mem mem)
  have closes := ratings_close _ (mem_records mem)
  rw [find_eq_occurrences mem] at found
  obtain ⟨index, numeral, positive, head, spelled⟩ : ∃ index numeral, index ≠ 0 ∧
      m.captures.head? = some (index, numeral) ∧ Pattern.numeral.Spells true numeral := by
    simp only [closesWithNumeral, rating, Bool.not_true, Bool.false_or, Bool.or_eq_true,
      Bool.and_eq_true] at closes
    rcases closes with last | ⟨_, raised⟩
    · obtain ⟨_, numeral, _, head, spelled, _⟩ :=
        Pattern.exists_lastNumeral_of_mem solid last found
      exact ⟨2, numeral, two_ne_zero, head, spelled⟩
    · obtain ⟨_, numeral, _, head, spelled⟩ :=
        Pattern.exists_raisedNumeral_of_mem solid raised found
      exact ⟨1, numeral, one_ne_zero, head, spelled⟩
  have same : n.group index = m.group index := by
    refine both.group_eq fun met group => ?_
    obtain ⟨earlier, captures⟩ := List.head?_eq_some_iff.mp head
    unfold Occurrence.group at group
    rw [if_neg positive, captures, List.lookup_cons, beq_self_eq_true] at group
    split at group
    · cases group
    · obtain rfl : numeral = met := Option.some.inj (Except.ok.inj group)
      exact Pattern.visible_of_spells_numeral spelled
  have last : m.lastGroup? = some index := by rw [Occurrence.lastGroup?, head]; rfl
  rw [Extractor.lastRating, Extractor.lastRating, both.lastGroup?, last]
  exact Extractor.groupRating_respaced same

/-- A rule of record extracts the same from an occurrence however its text is respaced. -/
theorem extract_respaced (mem : rule ∈ all) (found : m ∈ rule.shape.find chars)
    (both : m.Respaced r n) : rule.extract n = rule.extract m := by
  unfold Rule.extract
  cases extractorEq : rule.extractor with
  | none => rfl
  | some extractor =>
      have ofKind := extractorEq.symm.trans (isOfKind rule mem).extractor
      have year {index : Nat} (reads : index ∈ numberGroups rule.kind) :=
        Extractor.groupYear_respaced (group_eq_of_found mem found both reads)
      have rating {index : Nat} (reads : index ∈ numberGroups rule.kind) :=
        Extractor.groupRating_respaced (group_eq_of_found mem found both reads)
      have last (isRating : rule.kind.isRating = true) :=
        lastRating_respaced mem isRating found both
      show extractor n = extractor m
      generalize rule.kind = kind at ofKind year rating last
      cases kind with
      | yearFrom =>
          cases ofKind
          rw [Extractor.yearFrom, Extractor.yearFrom, year List.mem_cons_self]
      | yearTo =>
          cases ofKind
          rw [Extractor.yearTo, Extractor.yearTo, year List.mem_cons_self]
      | yearExact =>
          cases ofKind
          rw [Extractor.yearExact, Extractor.yearExact, year List.mem_cons_self]
      | yearRange =>
          cases ofKind
          rw [Extractor.yearRange, Extractor.yearRange, year List.mem_cons_self,
            year (List.mem_cons_of_mem _ List.mem_cons_self)]
      | ratingMin | ratingFloor =>
          cases ofKind
          rw [Extractor.ratingMin, Extractor.ratingMin, last rfl]
      | ratingMax =>
          cases ofKind
          rw [Extractor.ratingMax, Extractor.ratingMax, last rfl]
      | ratingRange =>
          cases ofKind
          rw [Extractor.ratingRange, Extractor.ratingRange, rating List.mem_cons_self,
            rating (List.mem_cons_of_mem _ List.mem_cons_self)]
      | genre | genreExclude =>
          cases ofKind
          exact Extractor.genre_respaced both
      | contentType | provider | country => cases ofKind

/-- Whether a phrase of record is accepted, and with what value, does not depend on its gaps. -/
theorem judge_respaced (mem : rule ∈ all) (found : m ∈ rule.shape.find chars)
    (both : m.Respaced r n) : (rule.judge n).value? = (rule.judge m).value? :=
  value?_judge_respaced both (extract_respaced mem found both)

/-- The phrases with single spaces that rules look for from some rule on. -/
def spacedFrom (index : Nat) : List (List Char × List Char) :=
  if index < 10 then spacedPhrases else []

theorem areWords_spacedFrom (index : Nat) : Respacing.areWords (spacedFrom index) = true := by
  unfold spacedFrom
  split
  · decide +kernel
  · rfl

theorem isTidy_of_getElem? {k : Nat} (ruleAt : all[k]? = some rule) :
    rule.pattern.isTidy (spacedFrom k) = true := by
  have entry : records[k]? = some (rule.kind, rule.pattern) := by
    rw [getElem?_records, ruleAt]
    rfl
  unfold spacedFrom
  split
  next early =>
    exact spacing.1 _ (List.mem_of_getElem? (by rwa [List.getElem?_take_of_lt early]))
  next late =>
    have listed : (records.drop 10)[k - 10]? = some (rule.kind, rule.pattern) := by
      rw [List.getElem?_drop, Nat.add_sub_cancel' (Nat.le_of_not_lt late), entry]
    exact spacing.2.1 _ (List.mem_of_getElem? listed)

/-- In two texts that differ in their gaps a rule of record finds the same phrases. -/
theorem find_respaced {k : Nat} (ruleAt : all[k]? = some rule) (keeps : r.Keeps (spacedFrom k)) :
    List.Forall₂ (Occurrence.Respaced r) (rule.shape.find (text false r))
      (rule.shape.find (text true r)) := by
  have mem := List.mem_of_getElem? ruleAt
  rw [find_eq_occurrences mem, find_eq_occurrences mem]
  exact Pattern.occurrences_respaced keeps (areWords_spacedFrom k) (isTidy_of_getElem? ruleAt)

/-- What a rule finds before the last phrase with a single space was looked for are whole words. -/
theorem isWhole_of_lt_nine {k : Nat} (ruleAt : all[k]? = some rule) (early : k < 9)
    (found : m ∈ rule.shape.find chars) : m.IsWhole chars := by
  have mem := List.mem_of_getElem? ruleAt
  have entry : records[k]? = some (rule.kind, rule.pattern) := by
    rw [getElem?_records, ruleAt]
    rfl
  have asks := spacing.2.2.1 _ (List.mem_of_getElem? (by rwa [List.getElem?_take_of_lt early]))
  rw [find_eq_occurrences mem] at found
  exact Pattern.isWhole_of_mem asks found

end DefaultRules

end FilmQuery
