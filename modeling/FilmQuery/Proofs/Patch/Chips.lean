/-
# Fragments of record and what they come to

The rules of record look for what is searched for before they look for years, and no order but that
of the rules is ever made, so fragments of record name films or shows in front of every year
(`OfRecord`).  Removing some of them changes nothing about that.  So all their years belong to one
medium, and they can always be made into a patch.
-/
import FilmQuery.Patch.Merge
import FilmQuery.Proofs.Patch.Digest
import FilmQuery.Proofs.Query.Turns
import FilmQuery.Proofs.Rule.Values

namespace FilmQuery

/-- Fragments as the rules of record make them: their kinds allow their values, and what is searched
for is named in front of every year. -/
structure OfRecord (chips : List Fragment) : Prop where
  allows : ∀ f ∈ chips, f.kind.Allows f.value
  namedFirst : chips.Pairwise fun f g => f.kind.isYear = true → g.kind ≠ .contentType

namespace OfRecord

theorem nil : OfRecord [] := ⟨by simp, .nil⟩

theorem sublist {chips part : List Fragment} (record : OfRecord chips) (sub : part.Sublist chips) :
    OfRecord part where
  allows f mem := record.allows f (sub.subset mem)
  namedFirst := record.namedFirst.sublist sub

end OfRecord

/-- The fragments that are left when some are removed one after another. -/
def withoutFragments (chips : List Fragment) (removed : List FragmentId) : List Fragment :=
  removed.foldl withoutFragment chips

theorem withoutFragments_sublist (chips : List Fragment) (removed : List FragmentId) :
    (withoutFragments chips removed).Sublist chips := by
  induction removed generalizing chips with
  | nil => exact List.Sublist.refl chips
  | cons id removed ih => exact (ih (withoutFragment chips id)).trans List.filter_sublist

namespace DefaultRules

/-- No rule for years comes before one for what is searched for. -/
theorem namedFirst :
    all.Pairwise fun rule later => rule.kind.isYear = true → later.kind ≠ .contentType := by
  decide

variable {run : Nat} {query : List Char}

/-- A fragment of record has the kind of the rule that made it, and that kind allows its value. -/
theorem exists_rule_of_mem_fragments {f : Fragment}
    (mem : f ∈ (Table.default.read run query).fragments) :
    ∃ k, ∃ rule : Rule, f.rule? = some k ∧ all[k]? = some rule ∧ f.kind = rule.kind ∧
      f.kind.Allows f.value := by
  obtain ⟨k, rule, ruleAt, claimed⟩ := mem_fragments_iff.mp mem
  obtain ⟨m, found, made⟩ := List.mem_filterMap.mp claimed
  obtain ⟨kind, extracted, something, _⟩ := Rule.said_of_claim? made
  refine ⟨k, rule, rule?_of_mem_claims claimed, ruleAt, kind, ?_⟩
  rw [kind]
  exact allows_of_extract (List.mem_of_getElem? ruleAt) found extracted something

/-- What the rules of record make of a query is of record. -/
theorem ofRecord_fragments (run : Nat) (query : List Char) :
    OfRecord (Table.default.read run query).fragments where
  allows f mem := by
    obtain ⟨_, _, _, _, _, allows⟩ := exists_rule_of_mem_fragments mem
    exact allows
  namedFirst := by
    have inTurns : (Table.default.read run query).fragments.Pairwise Fragment.ReadBefore := by
      rw [read_fragments]
      exact readParts_pairwise_readBefore run 0 all (PlacedText.sorted_ofText query)
    refine inTurns.imp_of_mem fun {f g} memF memG before year content => ?_
    obtain ⟨j, rule, numberF, ruleAt, kindF, _⟩ := exists_rule_of_mem_fragments memF
    obtain ⟨k, later, numberG, laterAt, kindG, _⟩ := exists_rule_of_mem_fragments memG
    obtain ⟨_, _, numberF', numberG', le, _⟩ := before
    rw [numberF] at numberF'
    rw [numberG] at numberG'
    cases numberF'
    cases numberG'
    rw [kindF] at year
    rw [kindG] at content
    rcases Nat.lt_or_eq_of_le le with lt | rfl
    · obtain ⟨inRangeJ, rfl⟩ := List.getElem?_eq_some_iff.mp ruleAt
      obtain ⟨inRangeK, rfl⟩ := List.getElem?_eq_some_iff.mp laterAt
      exact List.pairwise_iff_getElem.mp namedFirst j k inRangeJ inRangeK lt year content
    · rw [ruleAt] at laterAt
      cases laterAt
      rw [content] at year
      cases year

end DefaultRules

/-- Whatever is asked for with the rules of record, what is found is of record. -/
theorem OfRecord.fragments (run : Nat) (query : Json) :
    OfRecord (Table.default.fragments run query) := by
  cases query with
  | str text => exact DefaultRules.ofRecord_fragments run text.toList
  | _ => exact .nil

/-- A value that is allowed has the form that its kind asks for. -/
theorem Fragment.isTyped_of_allows {f : Fragment} (allows : f.kind.Allows f.value) :
    f.isTyped = true := by
  unfold isTyped
  cases kind : f.kind <;> rw [kind] at allows
  case contentType =>
    obtain ⟨medium, said⟩ := allows
    rw [said]
    rfl
  case provider =>
    obtain ⟨provider, said⟩ := allows
    rw [said]
    rfl
  case genre | genreExclude =>
    obtain ⟨entry, _, said⟩ := allows
    rw [said]
    rfl
  case country =>
    obtain ⟨code, _, said⟩ := allows
    rw [said]
    rfl
  all_goals
    obtain ⟨range, said, _⟩ := allows
    rw [said]
    rfl

theorem Medium.name_inj {medium other : Medium} : medium.name = other.name ↔ medium = other := by
  cases medium <;> cases other <;> decide

theorem single_eq_nil_iff {key : String} {value : Value} :
    Patch.single key value = [] ↔ value = .nothing := by
  unfold Patch.single
  split <;> simp_all

theorem several_eq_nil_iff {key : String} {items : List Value} :
    Patch.several key items = [] ↔ items = [] := by
  unfold Patch.several
  split <;> simp_all

theorem lastWord_eq_nothing_iff {words : List String} : lastWord words = .nothing ↔ words = [] := by
  unfold lastWord
  cases last : words.getLast? with
  | none => simpa using last
  | some word =>
      have nonempty : words ≠ [] := by
        rintro rfl
        cases last
      simp [nonempty]

theorem years_together_eq_nothing_iff {ranges : List YearRange} :
    YearRange.together ranges = .nothing ↔ ranges = [] := by
  unfold YearRange.together
  split <;> simp_all

theorem ratings_together_eq_nothing_iff {ranges : List RatingRange} :
    RatingRange.together ranges = .nothing ↔ ranges = [] := by
  unfold RatingRange.together
  split <;> simp_all

theorem distinctNumbers_eq_nil_iff {ns : List Int} : distinctNumbers ns = [] ↔ ns = [] := by
  cases ns <;> simp [distinctNumbers, List.eraseDups_cons]

theorem isRange_digest (search : Medium) (chips : List Fragment) :
    (Patch.digest search chips).ranges.all Patch.isRange = true := by
  have years (ranges : List YearRange) : Patch.isRange (YearRange.together ranges) = true := by
    unfold YearRange.together
    split <;> rfl
  have ratings (ranges : List RatingRange) :
      Patch.isRange (RatingRange.together ranges) = true := by
    unfold RatingRange.together
    split <;> rfl
  simp [Patch.ranges, Patch.digest, years, ratings]

/-- What is said was read from a fragment. -/
theorem exists_of_mem_said {α : Type} {of : Kind → Bool} {read : Value → Option α}
    {chips : List Fragment} {x : α} (heard : x ∈ said of read chips) :
    ∃ f ∈ chips, of f.kind = true ∧ read f.value = some x := by
  obtain ⟨f, mem, reads⟩ := List.mem_filterMap.mp heard
  obtain ⟨kind, value⟩ := Option.ite_none_right_eq_some.mp reads
  exact ⟨f, mem, kind, value⟩

namespace OfRecord

variable {chips : List Fragment} {search : Medium}

/-- What fragments of a kind say was read from a value that the kind allows. -/
theorem allows_of_mem_said (record : OfRecord chips) {kind : Kind} {α : Type}
    {read : Value → Option α} {x : α} (heard : x ∈ said (· = kind) read chips) :
    ∃ value, kind.Allows value ∧ read value = some x := by
  obtain ⟨f, mem, ofKind, reads⟩ := exists_of_mem_said heard
  have allows := record.allows f mem
  rw [of_decide_eq_true ofKind] at allows
  exact ⟨f.value, allows, reads⟩

/-- No fragment behind a year names what is searched for. -/
theorem said_contentType_drop (record : OfRecord chips) {i : Nat} {f : Fragment}
    (yearAt : chips[i]? = some f) (year : f.kind.isYear = true) :
    said (· = .contentType) Value.text? (chips.drop i) = [] := by
  obtain ⟨inRange, rfl⟩ := List.getElem?_eq_some_iff.mp yearAt
  have behind := record.namedFirst.sublist (List.drop_sublist i chips)
  rw [List.drop_eq_getElem_cons inRange] at behind ⊢
  apply List.filterMap_eq_nil_iff.mpr
  intro g mem
  have other : g.kind ≠ .contentType := by
    rcases List.mem_cons.mp mem with rfl | mem
    · intro content
      rw [content] at year
      cases year
    · exact (List.pairwise_cons.mp behind).1 g mem year
  simp [other]

/-- What is searched for at a year is what is searched for in the end. -/
theorem searchedName_take (record : OfRecord chips) {i : Nat} {f : Fragment}
    (yearAt : chips[i]? = some f) (year : f.kind.isYear = true) :
    searchedName search (chips.take i) = searchedName search chips := by
  have same : said (· = .contentType) Value.text? chips =
      said (· = .contentType) Value.text? (chips.take i) := by
    conv_lhs => rw [← List.take_append_drop i chips]
    rw [said_append, record.said_contentType_drop yearAt year, List.append_nil]
  rw [searchedName, searchedName, same]

/-- All years of fragments of record speak about what is searched for in the end. -/
theorem datedYears_eq (record : OfRecord chips) :
    datedYears search chips =
      (said Kind.isYear Value.years? chips).map (searchedName search chips, ·) := by
  rw [datedYears, said, List.map_filterMap]
  calc
    _ = chips.zipIdx.filterMap fun x =>
          (if x.1.kind.isYear then x.1.value.years? else none).map
            (searchedName search chips, ·) := by
      refine List.filterMap_congr fun x mem => ?_
      obtain ⟨f, i⟩ := x
      by_cases year : f.kind.isYear = true
      · simp only [record.searchedName_take (List.mem_zipIdx_iff_getElem?.mp mem) year]
      · simp only [year, if_false, Option.map_none, Bool.false_eq_true]
    _ = (chips.zipIdx.map Prod.fst).filterMap fun f =>
          (if f.kind.isYear then f.value.years? else none).map (searchedName search chips, ·) := by
      rw [List.filterMap_map]
      rfl
    _ = _ := by rw [List.zipIdx_map_fst]

/-- Fragments of record search for films or for shows: for what they name, or else for what is
searched for anyway. -/
theorem exists_searched (record : OfRecord chips) (search : Medium) :
    ∃ medium : Medium, searchedName search chips = medium.name ∧
      ((Patch.digest search chips).contentType = .nothing ∧ medium = search ∨
        (Patch.digest search chips).contentType = .text medium.name) := by
  cases last : (said (· = .contentType) Value.text? chips).getLast? with
  | none =>
      refine ⟨search, ?_, .inl ⟨?_, rfl⟩⟩
      · rw [searchedName, last]
      · simp [Patch.digest, lastWord, last]
  | some name =>
      obtain ⟨_, ⟨medium, rfl⟩, text⟩ := record.allows_of_mem_said (List.mem_of_getLast? last)
      have named : name = medium.name := (Option.some.inj text).symm
      refine ⟨medium, ?_, .inr ?_⟩
      · have nonempty : medium.name ≠ "" := by cases medium <;> decide
        simp [searchedName, last, named, nonempty]
      · simp [Patch.digest, lastWord, last, named]

/-- The dates of the medium that is searched for in the end hold all years, those of the other
medium hold none. -/
theorem dates_digest_eq (record : OfRecord chips) {medium : Medium}
    (searched : searchedName search chips = medium.name) (other : Medium) :
    (Patch.digest search chips).dates other =
      if other = medium then YearRange.together (said Kind.isYear Value.years? chips)
      else .nothing := by
  rw [Patch.dates_digest, record.datedYears_eq, searched, yearsOf, List.filterMap_map]
  by_cases same : other = medium
  · subst same
    simp
  · have apart : ¬ medium.name = other.name := fun name => same (Medium.name_inj.mp name).symm
    simp [same, apart, YearRange.together]

/-- Where a fragment of a kind can be read, something is said of the kind. -/
theorem said_ne_nil {α : Type} {of : Kind → Bool} {read : Value → Option α} {f : Fragment}
    (mem : f ∈ chips) (kind : of f.kind = true) {x : α} (reads : read f.value = some x) :
    said of read chips ≠ [] := by
  have heard : x ∈ said of read chips := List.mem_filterMap.mpr ⟨f, mem, by rw [if_pos kind, reads]⟩
  exact List.ne_nil_of_mem heard

/-- Something is said of years if and only if there is a year. -/
theorem said_years_ne_nil_iff (record : OfRecord chips) :
    said Kind.isYear Value.years? chips ≠ [] ↔ ∃ f ∈ chips, f.kind.isYear = true := by
  constructor
  · intro something
    obtain ⟨range, mem⟩ := List.exists_mem_of_ne_nil _ something
    obtain ⟨f, inChips, year, _⟩ := exists_of_mem_said mem
    exact ⟨f, inChips, year⟩
  · rintro ⟨f, mem, year⟩
    have typed := Fragment.isTyped_of_allows (record.allows f mem)
    obtain ⟨range, value⟩ := Fragment.exists_years typed year
    exact said_ne_nil mem year (Value.years?_eq_some.mpr value)

theorem numbers_ne_nil (record : OfRecord chips) :
    (said (· = .provider) Value.numbers? chips).flatten = [] →
      said (· = .provider) Value.numbers? chips = [] := by
  intro flat
  rw [List.flatten_eq_nil_iff] at flat
  rw [List.eq_nil_iff_forall_not_mem]
  intro numbers mem
  have empty := flat numbers mem
  obtain ⟨_, ⟨provider, rfl⟩, read⟩ := record.allows_of_mem_said mem
  rw [empty] at read
  cases read

/-- The patch of fragments of record sets nothing only if there are none. -/
theorem exists_filters (record : OfRecord chips) (search : Medium) :
    ∃ filters, (Patch.digest search chips).filters = .ok filters ∧
      (filters = [] ↔ chips = []) := by
  refine ⟨_, if_pos (isRange_digest search chips), ?_⟩
  simp only [List.append_eq_nil_iff, single_eq_nil_iff, several_eq_nil_iff]
  constructor
  · rintro ⟨⟨⟨⟨⟨⟨⟨content, movie⟩, tv⟩, votes⟩, providers⟩, genres⟩, without⟩, region⟩
    rw [List.eq_nil_iff_forall_not_mem]
    intro f mem
    have allows := record.allows f mem
    cases kind : f.kind <;> rw [kind] at allows
    case contentType =>
      obtain ⟨medium, value⟩ := allows
      exact said_ne_nil mem (by simp [kind]) (by rw [value]; rfl)
        (lastWord_eq_nothing_iff.mp content)
    case yearFrom | yearTo | yearExact | yearRange =>
      obtain ⟨range, value, _⟩ := allows
      obtain ⟨medium, searched, _⟩ := record.exists_searched search
      have dates := record.dates_digest_eq searched medium
      rw [if_pos rfl] at dates
      have none : (Patch.digest search chips).dates medium = .nothing := by
        cases medium
        · exact movie
        · exact tv
      rw [none] at dates
      exact said_ne_nil mem (by rw [kind]; rfl) (by rw [value]; rfl)
        (years_together_eq_nothing_iff.mp dates.symm)
    case ratingMin | ratingMax | ratingFloor | ratingRange =>
      obtain ⟨range, value, _⟩ := allows
      exact said_ne_nil mem (by rw [kind]; rfl) (by rw [value]; rfl)
        (ratings_together_eq_nothing_iff.mp votes)
    case provider =>
      obtain ⟨provider, value⟩ := allows
      exact said_ne_nil mem (by simp [kind]) (by rw [value]; rfl)
        (record.numbers_ne_nil (distinctNumbers_eq_nil_iff.mp providers))
    case genre =>
      obtain ⟨entry, _, value⟩ := allows
      exact said_ne_nil mem (by simp [kind]) (by rw [value]; rfl)
        (distinctNumbers_eq_nil_iff.mp genres)
    case genreExclude =>
      obtain ⟨entry, _, value⟩ := allows
      exact said_ne_nil mem (by simp [kind]) (by rw [value]; rfl)
        (distinctNumbers_eq_nil_iff.mp without)
    case country =>
      obtain ⟨code, _, value⟩ := allows
      exact said_ne_nil mem (by simp [kind]) (by rw [value]; rfl)
        (lastWord_eq_nothing_iff.mp region)
  · rintro rfl
    exact ⟨⟨⟨⟨⟨⟨⟨rfl, rfl⟩, rfl⟩, rfl⟩, rfl⟩, rfl⟩, rfl⟩, rfl⟩

/-- Fragments of record are merged into what they come to. -/
theorem ofFragments_eq_digest (record : OfRecord chips) (search : Medium) :
    Patch.ofFragments search chips = .ok (Patch.digest search chips) := by
  apply Patch.ofFragments_eq_digest
  · exact fun f mem => Fragment.isTyped_of_allows (record.allows f mem)
  · intro dated mem
    obtain ⟨medium, searched, _⟩ := record.exists_searched search
    rw [record.datedYears_eq, searched] at mem
    obtain ⟨range, _, rfl⟩ := List.mem_map.mp mem
    rw [Medium.ofName?_name]
    exact Option.some_ne_none medium

end OfRecord

/-- Whatever is removed from the fragments of a query, the others make a patch.  Its dates are those
of the medium that it names, or else of the one that is searched for, and it has them if and only if
a year is left.  It sets nothing if and only if no fragment is left. -/
theorem exists_patch_of_remaining (search : Medium) (run : Nat) (query : List Char)
    (removed : List FragmentId) :
    ∃ patch medium filters,
      Patch.ofFragments search
          (withoutFragments (Table.default.read run query).fragments removed) = .ok patch ∧
        (patch.contentType = .nothing ∧ medium = search ∨
          patch.contentType = .text medium.name) ∧
        (∀ other, patch.dates other ≠ .nothing ↔ other = medium ∧
          ∃ f ∈ withoutFragments (Table.default.read run query).fragments removed,
            f.kind.isYear = true) ∧
        patch.filters = .ok filters ∧
        (filters = [] ↔
          withoutFragments (Table.default.read run query).fragments removed = []) := by
  have record := (DefaultRules.ofRecord_fragments run query).sublist
    (withoutFragments_sublist _ removed)
  generalize withoutFragments (Table.default.read run query).fragments removed = chips at record ⊢
  obtain ⟨medium, searched, named⟩ := record.exists_searched search
  obtain ⟨filters, sets, nothing⟩ := record.exists_filters search
  refine ⟨_, medium, filters, record.ofFragments_eq_digest search, named, ?_, sets, nothing⟩
  intro other
  rw [record.dates_digest_eq searched other]
  by_cases same : other = medium
  · rw [if_pos same, ne_eq, years_together_eq_nothing_iff, ← ne_eq, record.said_years_ne_nil_iff,
      and_iff_right same]
  · simp [same]

end FilmQuery
