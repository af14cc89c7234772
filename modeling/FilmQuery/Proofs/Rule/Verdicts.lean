/-
# What the rules of record reject

A rule of record can read every phrase that it finds: the groups that its extractor asks for have
met something (`Pattern.exists_group_of_meetsAs`), and what they have met is a year, a numeral or a
word for a genre.  So no phrase is passed over with a warning, and a phrase is rejected for few
reasons only (`Kind.Rejects`): a rating beyond the scale, a range that runs backward, and a word for
a genre with a stray `i` (`DefaultRules.judge_of_found`, `DefaultRules.verdicts_settled`).
-/
import FilmQuery.Proofs.Rule.GenreNames
import FilmQuery.Proofs.Rule.Numerals
import FilmQuery.Proofs.Rule.YearOrder

namespace FilmQuery

open Number (Binary64 Decimal)
open Number.Numeral (Typed real? real?_of_typed)

/-- Why a phrase of a kind is rejected. -/
def Kind.Rejects : Kind → Occurrence → Prop
  | .ratingMin, m | .ratingMax, m | .ratingFloor, m =>
    ∃ index numeral x, m.lastGroup? = some index ∧ m.group index = .ok (some numeral) ∧
      real? numeral = some x ∧ (Binary64.ofInt 10).lt x = true
  | .ratingRange, m =>
    ∃ first second low high, m.group 1 = .ok (some first) ∧ m.group 2 = .ok (some second) ∧
      real? first = some low ∧ real? second = some high ∧
        ((Binary64.ofInt 10).lt low = true ∨ (Binary64.ofInt 10).lt high = true ∨
          high.lt low = true)
  | .yearRange, m =>
    ∃ start stop, m.group 1 = .ok (some start) ∧ m.group 2 = .ok (some stop) ∧
      String.ofList stop < String.ofList start
  | .genre, m | .genreExclude, m =>
    ∃ word, m.group 1 = .ok (some word) ∧ ∃ c ∈ word, Text.isStrayI c = true
  | _, _ => False

namespace Pattern

variable {pattern body : Pattern} {index : Nat}

/-- Whether every way of a pattern leads through a group of some number, and every such group is of
one form. -/
def meetsAs (pattern : Pattern) (index : Nat) (body : Pattern) : Bool :=
  pattern.alwaysMeets index && pattern.groups.all fun (number, inner) =>
    number != index || inner == body

theorem le_groupCount_of_alwaysMeets (always : pattern.alwaysMeets index = true) :
    index ≤ pattern.groupCount := by
  induction pattern with
  | seq a b first second =>
      rcases Bool.or_eq_true_iff.mp always with ofA | ofB
      · exact (first ofA).trans (Nat.le_max_left _ _)
      · exact (second ofB).trans (Nat.le_max_right _ _)
  | alt a b first _ =>
      exact (first (Bool.and_eq_true_iff.mp always).1).trans (Nat.le_max_left _ _)
  | group number inner ih =>
      rcases Bool.or_eq_true_iff.mp always with here | inside
      · exact (eq_of_beq here) ▸ Nat.le_max_left _ _
      · exact (ih inside).trans (Nat.le_max_right _ _)
  | repeated least most eager inner ih => exact ih (Bool.and_eq_true_iff.mp always).2
  | _ => cases always

/-- A group that every way leads through has met a text of its form. -/
theorem exists_group_of_meetsAs {text : List Char} {m : Occurrence}
    (met : pattern.meetsAs index body = true) (numbered : index ≠ 0)
    (found : m ∈ pattern.occurrences true text) :
    ∃ taken, m.group index = .ok (some taken) ∧ body.Spells true taken := by
  obtain ⟨always, only⟩ := Bool.and_eq_true_iff.mp met
  obtain ⟨taken, lookup, noted⟩ := exists_lookup_of_mem_occurrences found always
  have within : ¬ m.groupCount < index := by
    rw [groupCount_of_mem_occurrences found]
    exact Nat.not_lt.mpr (le_groupCount_of_alwaysMeets always)
  refine ⟨taken, ?_, ?_⟩
  · rw [Occurrence.group, if_neg numbered, if_neg within, lookup]
  · obtain ⟨inner, isGroup, spelled⟩ := (spells_of_mem_occurrences found).2 _ noted
    have form := List.all_eq_true.mp only _ isGroup
    simp only [bne_self_eq_false, Bool.false_or, beq_iff_eq] at form
    rwa [form] at spelled

/-- If all groups have one number, that is the number of the group that was completed last. -/
theorem lastGroup?_of_only {text taken : List Char} {m : Occurrence}
    (only : (pattern.groups.all fun (number, _) => number == index) = true)
    (found : m ∈ pattern.occurrences true text) (numbered : index ≠ 0)
    (met : m.group index = .ok (some taken)) : m.lastGroup? = some index := by
  have noted : m.captures ≠ [] := by
    intro none
    rw [Occurrence.group, if_neg numbered, none] at met
    split at met <;> cases met
  obtain ⟨last, earlier, captures⟩ := List.exists_cons_of_ne_nil noted
  obtain ⟨body, isGroup, _⟩ := (spells_of_mem_occurrences found).2 last
    (captures ▸ List.mem_cons_self)
  have same := List.all_eq_true.mp only _ isGroup
  rw [Occurrence.lastGroup?, captures, List.head?_cons, Option.map_some, eq_of_beq same]

end Pattern

namespace Number.Binary64

/-- Only numbers can be compared. -/
theorem exists_place_of_le {x y : Binary64} (le : x.le y = true) : ∃ b, y.place? = some b := by
  unfold Binary64.le at le
  split at le
  next _ b _ placed => exact ⟨b, placed⟩
  next => cases le

/-- Of two numbers one is no larger than the other, or it is larger. -/
theorem le_eq_not_lt {x y z : Binary64} (number : z.le x = true) (number' : z.le y = true) :
    x.le y = !y.lt x := by
  obtain ⟨a, placed⟩ := exists_place_of_le number
  obtain ⟨b, placed'⟩ := exists_place_of_le number'
  rw [le, lt, placed, placed', Bool.eq_iff_iff]
  simp

end Number.Binary64

namespace Extractor

/-- A numeral is read as a double, which is a rating unless it exceeds ten. -/
theorem exists_real_of_spells {text : List Char} (spelled : Pattern.numeral.Spells true text) :
    ∃ x, real? text = some x ∧
      rating? text = if (Binary64.ofInt 10).lt x = true then none else some x := by
  obtain ⟨d, typed⟩ : ∃ d, Typed text d := by
    rcases Pattern.isDigits_or_of_spells spelled with run | ⟨front, places, run, more, rfl⟩
    · exact ⟨_, .whole run⟩
    · exact ⟨_, .point run more⟩
  have read := real?_of_typed typed
  have onScale : isOnScale d.toBinary64 = !(Binary64.ofInt 10).lt d.toBinary64 := by
    have low := zero_le_toBinary64 d
    rw [isOnScale, low, Bool.true_and]
    exact Binary64.le_eq_not_lt low (by decide)
  refine ⟨_, read, ?_⟩
  rw [rating?, read, Option.filter_some, onScale]
  cases (Binary64.ofInt 10).lt d.toBinary64 <;> rfl

end Extractor

namespace Kind.Rejects

variable {m : Occurrence} {index : Nat} {first second : List Char} {x y : Binary64}

/-- One bound is rejected if its numeral exceeds ten. -/
theorem bound_iff (last : m.lastGroup? = some index) (met : m.group index = .ok (some first))
    (read : real? first = some x) :
    Kind.ratingMin.Rejects m ↔ (Binary64.ofInt 10).lt x = true := by
  refine ⟨?_, fun beyond => ⟨index, first, x, last, met, read, beyond⟩⟩
  rintro ⟨_, _, _, last', met', read', beyond⟩
  cases last.symm.trans last'
  cases met.symm.trans met'
  cases read.symm.trans read'
  exact beyond

theorem ratings_iff (met : m.group 1 = .ok (some first)) (met' : m.group 2 = .ok (some second))
    (read : real? first = some x) (read' : real? second = some y) :
    Kind.ratingRange.Rejects m ↔ (Binary64.ofInt 10).lt x = true ∨
      (Binary64.ofInt 10).lt y = true ∨ y.lt x = true := by
  refine ⟨?_, fun reason => ⟨first, second, x, y, met, met', read, read', reason⟩⟩
  rintro ⟨_, _, _, _, here, here', reads, reads', reason⟩
  cases met.symm.trans here
  cases met'.symm.trans here'
  cases read.symm.trans reads
  cases read'.symm.trans reads'
  exact reason

theorem years_iff (met : m.group 1 = .ok (some first)) (met' : m.group 2 = .ok (some second)) :
    Kind.yearRange.Rejects m ↔ String.ofList second < String.ofList first := by
  refine ⟨?_, fun backward => ⟨first, second, met, met', backward⟩⟩
  rintro ⟨_, _, here, here', backward⟩
  cases met.symm.trans here
  cases met'.symm.trans here'
  exact backward

theorem genre_iff (met : m.group 1 = .ok (some first)) :
    Kind.genre.Rejects m ↔ ∃ c ∈ first, Text.isStrayI c = true := by
  refine ⟨?_, fun stray => ⟨first, met, stray⟩⟩
  rintro ⟨_, here, stray⟩
  cases met.symm.trans here
  exact stray

end Kind.Rejects

namespace Extractor

variable {m : Occurrence} {index : Nat} {first second : List Char}

/-- An extractor can read an occurrence, and says nothing of it for a reason only. -/
structure Settles (extractor : Extractor) (m : Occurrence) (reason : Prop) : Prop where
  reads : ∃ value, extractor m = .ok value
  silent_iff : extractor m = .ok .nothing ↔ reason

theorem Settles.of_eq {extractor : Extractor} {reason : Prop} {value : Value}
    (read : extractor m = .ok value) (why : value = .nothing ↔ reason) :
    extractor.Settles m reason := by
  refine ⟨⟨value, read⟩, ?_⟩
  rw [read, Except.ok.injEq, why]

/-- A bound is read from the numeral that was noted last. -/
theorem settles_bound (last : m.lastGroup? = some index) (met : m.group index = .ok (some first))
    (spelled : Pattern.numeral.Spells true first) {extractor : Extractor}
    {say : Option Binary64 → Value} (form : extractor m = (lastRating m).map say)
    (silent : say none = .nothing) (speaks : ∀ x, say (some x) ≠ .nothing) :
    extractor.Settles m (Kind.ratingMin.Rejects m) := by
  obtain ⟨x, read, rated⟩ := exists_real_of_spells spelled
  have said : extractor m = .ok (say (rating? first)) := by
    rw [form, lastRating_eq_rating? last met]
    rfl
  refine .of_eq said ?_
  rw [Kind.Rejects.bound_iff last met read, rated]
  split
  next beyond => exact iff_of_true silent beyond
  next within => exact iff_of_false (speaks x) within

theorem settles_ratings (met : m.group 1 = .ok (some first)) (met' : m.group 2 = .ok (some second))
    (spelled : Pattern.numeral.Spells true first) (spelled' : Pattern.numeral.Spells true second) :
    ratingRange.Settles m (Kind.ratingRange.Rejects m) := by
  obtain ⟨x, read, rated⟩ := exists_real_of_spells spelled
  obtain ⟨y, read', rated'⟩ := exists_real_of_spells spelled'
  have low : groupRating m 1 = .ok (rating? first) := by
    rw [groupRating, met]
    rfl
  have high : groupRating m 2 = .ok (rating? second) := by
    rw [groupRating, met']
    rfl
  rw [Kind.Rejects.ratings_iff met met' read read']
  by_cases beyond : (Binary64.ofInt 10).lt x = true
  · have said : ratingRange m = .ok .nothing := by
      rw [ratingRange, low, high, rated, if_pos beyond]
      rfl
    exact .of_eq said (iff_of_true rfl (.inl beyond))
  by_cases beyond' : (Binary64.ofInt 10).lt y = true
  · have said : ratingRange m = .ok .nothing := by
      rw [ratingRange, low, high, rated, rated', if_neg beyond, if_pos beyond']
      rfl
    exact .of_eq said (iff_of_true rfl (.inr (.inl beyond')))
  have said : ratingRange m = .ok (if y.lt x then .nothing else .ratings ⟨some x, some y⟩) := by
    rw [ratingRange, low, high, rated, rated', if_neg beyond, if_neg beyond']
    rfl
  refine .of_eq said ?_
  by_cases downward : y.lt x = true
  · exact iff_of_true (if_pos downward) (.inr (.inr downward))
  · exact iff_of_false (by simp [downward]) (by simp [beyond, beyond', downward])

theorem settles_years (met : m.group 1 = .ok (some first)) (met' : m.group 2 = .ok (some second))
    (year : Part.year.Writes first) (year' : Part.year.Writes second) :
    yearRange.Settles m (Kind.yearRange.Rejects m) := by
  rw [Kind.Rejects.years_iff met met']
  have said : yearRange m =
      .ok (if String.ofList second < String.ofList first then .nothing
        else .years ⟨some (String.ofList first), some (String.ofList second)⟩) := by
    rw [yearRange, groupYear_eq met year, groupYear_eq met' year']
    rfl
  refine .of_eq said ?_
  split
  next backward => exact iff_of_true rfl backward
  next inOrder => exact iff_of_false (by rintro ⟨⟩) inOrder

theorem settles_genre (last : m.lastGroup? = some 1) (met : m.group 1 = .ok (some first))
    (spelled : Pattern.genreWord.Spells true first) :
    genre.Settles m (Kind.genre.Rejects m) := by
  have named := genreId?_isSome_iff spelled
  rw [Kind.Rejects.genre_iff met]
  cases found : Catalog.genreId? first with
  | none =>
      have said : genre m = .ok .nothing := by
        simp only [genre, last, met, Except.map, Option.getD_some, found]
      rw [found, Option.isSome_none] at named
      refine .of_eq said (iff_of_true rfl ?_)
      by_contra noStray
      exact absurd (named.mpr fun c mem => Bool.eq_false_iff.mpr fun stray =>
        noStray ⟨c, mem, stray⟩) Bool.false_ne_true
  | some id =>
      have said : genre m = .ok (.number id) := by
        simp only [genre, last, met, Except.map, Option.getD_some, found]
      refine .of_eq said (iff_of_false (by rintro ⟨⟩) ?_)
      rintro ⟨c, mem, stray⟩
      rw [named.mp (by rw [found]; rfl) c mem] at stray
      cases stray

end Extractor

namespace DefaultRules

/-- Whether the groups that the extractor of a kind reads have always met what it asks for. -/
def isMet : Kind × Pattern → Bool
  | (kind, pattern) => pattern.groupCount != 0 && match kind with
    | .yearFrom | .yearTo => pattern.meetsAs 2 .year
    | .yearExact => pattern.meetsAs 1 .year
    | .yearRange => pattern.meetsAs 1 .year && pattern.meetsAs 2 .year
    | .ratingRange => pattern.meetsAs 1 .numeral && pattern.meetsAs 2 .numeral
    | .genre | .genreExclude =>
      pattern.meetsAs 1 .genreWord && pattern.groups.all fun (number, _) => number == 1
    | _ => true

theorem records_met : ∀ entry ∈ records, isMet entry = true := by
  simp only [records, all, contentTypes, years, ratings, providers, genres, regions, List.map_cons,
    List.map_nil, List.cons_append, List.nil_append, reading_shape, meaning_shape, naming_shape,
    located_shape, phrase_text, reading_kind, meaning_kind, naming_kind, located_kind, rating,
    isMet, Pattern.genreWord]
  delta Catalog.genreWords
  simp only [String.toList_append, String.reduceToList]
  decide +kernel

variable {rule : Rule} {chars : List Char} {m : Occurrence}

/-- A rule with a fixed value always says something. -/
theorem settles_of_fixed (mem : rule ∈ all) (none : Extractor.ofKind? rule.kind = none) :
    Extractor.Settles rule.extract m False := by
  have ofKind := isOfKind rule mem
  have noExtractor := ofKind.extractor.trans none
  refine .of_eq (by rw [Rule.extract, noExtractor]) (iff_of_false ?_ id)
  have allowed := ofKind.fixed noExtractor
  intro nothing
  rw [nothing] at allowed
  generalize rule.kind = kind at allowed none
  cases kind with
  | contentType =>
      obtain ⟨_, same⟩ := allowed
      cases same
  | provider =>
      obtain ⟨_, same⟩ := allowed
      cases same
  | country =>
      obtain ⟨_, _, same⟩ := allowed
      cases same
  | _ => cases none

/-- What a rule of record finds can be read, and it says nothing for a reason only. -/
theorem settles_of_found (mem : rule ∈ all) (found : m ∈ rule.shape.find chars) :
    Extractor.Settles rule.extract m (rule.kind.Rejects m) := by
  have met := (Bool.and_eq_true_iff.mp (records_met _ (mem_records mem))).2
  have extracts {extractor : Extractor} (ofKind : Extractor.ofKind? rule.kind = some extractor) :
      rule.extract = extractor := by
    funext m
    rw [Rule.extract, (isOfKind rule mem).extractor, ofKind]
  have here := found
  rw [find_eq_occurrences mem] at here
  cases kind : rule.kind with
  | contentType | provider | country => exact settles_of_fixed mem (by rw [kind]; rfl)
  | yearFrom =>
      rw [kind] at met
      obtain ⟨year, group, spelled⟩ := Pattern.exists_group_of_meetsAs met two_ne_zero here
      rw [extracts (by rw [kind]; rfl)]
      exact .of_eq (Extractor.yearFrom_eq group (Pattern.digits_of_spells_year spelled))
        (iff_of_false (by rintro ⟨⟩) id)
  | yearTo =>
      rw [kind] at met
      obtain ⟨year, group, spelled⟩ := Pattern.exists_group_of_meetsAs met two_ne_zero here
      rw [extracts (by rw [kind]; rfl)]
      exact .of_eq (Extractor.yearTo_eq group (Pattern.digits_of_spells_year spelled))
        (iff_of_false (by rintro ⟨⟩) id)
  | yearExact =>
      rw [kind] at met
      obtain ⟨year, group, spelled⟩ := Pattern.exists_group_of_meetsAs met one_ne_zero here
      rw [extracts (by rw [kind]; rfl)]
      exact .of_eq (Extractor.yearExact_eq group (Pattern.digits_of_spells_year spelled))
        (iff_of_false (by rintro ⟨⟩) id)
  | yearRange =>
      rw [kind, Bool.and_eq_true] at met
      obtain ⟨start, group, spelled⟩ := Pattern.exists_group_of_meetsAs met.1 one_ne_zero here
      obtain ⟨stop, group', spelled'⟩ := Pattern.exists_group_of_meetsAs met.2 two_ne_zero here
      rw [extracts (by rw [kind]; rfl)]
      exact Extractor.settles_years group group' (Pattern.digits_of_spells_year spelled)
        (Pattern.digits_of_spells_year spelled')
  | ratingMin | ratingFloor =>
      obtain ⟨index, _, numeral, _, _, _, last, group, _, spelled, _⟩ :=
        exists_spelled_of_found mem (by rw [kind]; rfl) found
      rw [extracts (by rw [kind]; rfl)]
      exact Extractor.settles_bound last group spelled rfl rfl (by rintro _ ⟨⟩)
  | ratingMax =>
      obtain ⟨index, _, numeral, _, _, _, last, group, _, spelled, _⟩ :=
        exists_spelled_of_found mem (by rw [kind]; rfl) found
      rw [extracts (by rw [kind]; rfl)]
      exact Extractor.settles_bound last group spelled rfl rfl (by rintro _ ⟨⟩)
  | ratingRange =>
      rw [kind, Bool.and_eq_true] at met
      obtain ⟨first, group, spelled⟩ := Pattern.exists_group_of_meetsAs met.1 one_ne_zero here
      obtain ⟨second, group', spelled'⟩ := Pattern.exists_group_of_meetsAs met.2 two_ne_zero here
      rw [extracts (by rw [kind]; rfl)]
      exact Extractor.settles_ratings group group' spelled spelled'
  | genre | genreExclude =>
      rw [kind, Bool.and_eq_true] at met
      obtain ⟨word, group, spelled⟩ := Pattern.exists_group_of_meetsAs met.1 one_ne_zero here
      have last := Pattern.lastGroup?_of_only met.2 here one_ne_zero group
      rw [extracts (by rw [kind]; rfl)]
      exact Extractor.settles_genre last group spelled

/-- What a rule of record finds is never passed over with a warning, and it is rejected for a reason
only. -/
theorem judge_of_found (mem : rule ∈ all) (found : m ∈ rule.shape.find chars) :
    (∀ fault, rule.judge m ≠ .failed fault) ∧
      (rule.judge m = .rejected ↔ rule.kind.Rejects m) := by
  have settles := settles_of_found mem found
  obtain ⟨value, extracted⟩ := settles.reads
  by_cases nothing : value = .nothing
  · rw [nothing] at extracted
    have rejected : rule.judge m = .rejected := by
      rw [Rule.judge, extracted]
    rw [rejected]
    exact ⟨by rintro _ ⟨⟩, iff_of_true rfl (settles.silent_iff.mp extracted)⟩
  · have asked : ∃ met, m.group 1 = .ok met := by
      have grouped := (Bool.and_eq_true_iff.mp (records_met _ (mem_records mem))).1
      rw [find_eq_occurrences mem] at found
      have count := Pattern.groupCount_of_mem_occurrences found
      have within : ¬ m.groupCount < 1 := by
        rw [count]
        exact Nat.not_lt.mpr (Nat.pos_of_ne_zero (bne_iff_ne.mp grouped))
      exact ⟨_, by rw [Occurrence.group, if_neg Nat.one_ne_zero, if_neg within]⟩
    obtain ⟨text, labelled⟩ :=
      exists_label (allows_of_extract mem found extracted nothing) asked
    rw [Rule.judge_of_extract extracted nothing, labelled]
    refine ⟨by rintro _ ⟨⟩, iff_of_false (by rintro ⟨⟩) fun why => nothing ?_⟩
    exact Except.ok.inj (extracted.symm.trans (settles.silent_iff.mpr why))

/-- The step: a rule of record makes no warnings. -/
theorem warnings_read (mem : rule ∈ all) (index run : Nat) (text : PlacedText) :
    (rule.read index run text).warnings = [] := by
  rw [Rule.read, List.filterMap_eq_nil_iff]
  intro finding found
  obtain ⟨m, occurs, rfl⟩ := List.mem_map.mp found
  have judged := (judge_of_found mem (List.mem_filter.mp occurs).1).1
  cases verdict : rule.judge m with
  | accepted | rejected => rfl
  | failed fault => exact absurd verdict (judged fault)

/-- The run: neither do several of them. -/
theorem warnings_readRules (run index : Nat) {rules : List Rule} (sub : rules ⊆ all)
    (text : PlacedText) : (readRules run index rules text).warnings = [] := by
  induction rules generalizing index text with
  | nil => rfl
  | cons rule rules ih =>
      obtain ⟨here, later⟩ := List.cons_subset.mp sub
      rw [readRules, warnings_read here, ih _ later, List.append_nil]

theorem warnings_default (run : Nat) (query : List Char) :
    (Table.default.read run query).warnings = [] := by
  rw [Table.read]
  split
  · rfl
  · exact warnings_readRules run 0 (List.Subset.refl all) _

/-- In every text, whatever a rule of record finds can be read and labelled, and it is rejected if
and only if there is a reason to: a bound or a range of ratings beyond the scale, a range that runs
backward, or a word for a genre with a stray `i`.  So no query has a warning.  Every other way to
write a word for a genre folds to the name of a genre. -/
theorem verdicts_settled :
    (∀ rule ∈ all, ∀ (chars : List Char), ∀ m ∈ rule.shape.find chars,
      (∀ fault, rule.judge m ≠ .failed fault) ∧
        (rule.judge m = .rejected ↔ rule.kind.Rejects m)) ∧
      (∀ (run : Nat) (query : List Char), (Table.default.read run query).warnings = []) ∧
      ∀ word : List Char, Pattern.genreWord.Spells true word →
        (∀ c ∈ word, Text.isStrayI c = false) →
          String.ofList (Catalog.foldedGenre word) ∈ Catalog.genreIds.map Prod.fst := by
  refine ⟨fun rule mem chars m found => judge_of_found mem found, warnings_default, ?_⟩
  intro word spelled noStray
  obtain ⟨id, named⟩ := Option.isSome_iff_exists.mp ((genreId?_isSome_iff spelled).mpr noStray)
  obtain ⟨before, behind, split, _⟩ := List.lookup_eq_some_iff.mp named
  rw [split]
  exact List.mem_map.mpr ⟨_, List.mem_append_right _ List.mem_cons_self, rfl⟩

/-- Eleven is beyond the scale, and a long `s` is no stray `i`. -/
theorem verdicts_settled_eleven :
    (∃ rule ∈ all, rule.kind = .ratingMin ∧ ∃ m ∈ rule.shape.find "rated above 11".toList,
      rule.judge m = .rejected) ∧
      (Table.default.read 0 "rated above 11".toList).warnings = [] ∧
      String.ofList (Catalog.foldedGenre "ſci-fi".toList) ∈ Catalog.genreIds.map Prod.fst := by
  obtain ⟨judged, noWarnings, named⟩ := verdicts_settled
  refine ⟨?_, noWarnings 0 _, named _ ?_ (by simp [Text.isStrayI])⟩
  · have found : (all[6]?.map fun rule => (rule.kind, rule.shape.find "rated above 11".toList)) =
        some (.ratingMin, [⟨0, 14, "rated above 11".toList, 2,
          [(2, "11".toList), (1, "above".toList)]⟩]) := by
      decide +kernel
    obtain ⟨rule, ruleAt, same⟩ := Option.map_eq_some_iff.mp found
    obtain ⟨bound, finds⟩ := Prod.mk.inj same
    have mem := List.mem_of_getElem? ruleAt
    have here := finds ▸ List.mem_singleton_self _
    refine ⟨rule, mem, bound, _, here, (judged rule mem _ _ here).2.mpr ?_⟩
    rw [bound]
    exact ⟨2, "11".toList, Binary64.ofInt 11, rfl, rfl, by decide +kernel, by decide +kernel⟩
  · have found : (Pattern.genreWord.occurrences true "ſci-fi".toList).map (·.text) =
        ["ſci-fi".toList] := by
      simp only [Pattern.genreWord]
      delta Catalog.genreWords
      simp only [String.toList_append, String.reduceToList]
      decide +kernel
    obtain ⟨m, occurs, text⟩ := List.mem_map.mp (found ▸ List.mem_singleton_self "ſci-fi".toList)
    exact text ▸ (Pattern.spells_of_mem_occurrences occurs).1

end DefaultRules

end FilmQuery
