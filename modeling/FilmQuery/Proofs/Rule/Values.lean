/-
# What the rules of record can say

A rule of record has a fixed value or the extractor of its kind, so every kind has few values that
a fragment of record can carry: `Kind.Allows`.  Years have four digits because the groups that they
are read from take nothing else, ratings are checked against their scale, and everything else comes
from a table.
-/
import FilmQuery.Medium
import FilmQuery.Proofs.Query.Excision
import FilmQuery.Proofs.Rule.YearPair

namespace FilmQuery

open Catalog (Provider genreIds)
open Number (Binary64)
open Text (isDigit)

/-- A year as it is typed: four decimal digits of any script. -/
def IsYear (text : String) : Prop :=
  text.toList.length = 4 ∧ ∀ c ∈ text.toList, isDigit c = true

/-- Dates with at least one side, every side of which is a year. -/
structure YearRange.IsSound (range : YearRange) : Prop where
  bounded : range.start ≠ none ∨ range.stop ≠ none
  start : ∀ year ∈ range.start, IsYear year
  stop : ∀ year ∈ range.stop, IsYear year

/-- Ratings with at least one side, every side of which is on the scale. -/
structure RatingRange.IsSound (range : RatingRange) : Prop where
  bounded : range.low ≠ none ∨ range.high ≠ none
  low : ∀ rating ∈ range.low, Extractor.isOnScale rating = true
  high : ∀ rating ∈ range.high, Extractor.isOnScale rating = true

/-- The codes of the regions that can be asked for. -/
def regionCodes : List String := ["US", "GB", "IN", "JP", "KR", "FR", "DE", "CA"]

/-- The values that a fragment of record of a kind can have. -/
def Kind.Allows : Kind → Value → Prop
  | .contentType, value => ∃ medium : Medium, value = .text medium.name
  | .yearFrom, value | .yearTo, value | .yearExact, value | .yearRange, value =>
    ∃ range : YearRange, value = .years range ∧ range.IsSound
  | .ratingMin, value | .ratingMax, value | .ratingFloor, value | .ratingRange, value =>
    ∃ range : RatingRange, value = .ratings range ∧ range.IsSound
  | .provider, value => ∃ provider : Provider, value = .numbers [provider.id]
  | .genre, value | .genreExclude, value => ∃ entry ∈ genreIds, value = .number entry.2
  | .country, value => ∃ code ∈ regionCodes, value = .text code

namespace Extractor

/-- The extractor of a kind, unless its values are fixed. -/
def ofKind? : Kind → Option Extractor
  | .yearFrom => some yearFrom
  | .yearTo => some yearTo
  | .yearExact => some yearExact
  | .yearRange => some yearRange
  | .ratingMin | .ratingFloor => some ratingMin
  | .ratingMax => some ratingMax
  | .ratingRange => some ratingRange
  | .genre | .genreExclude => some genre
  | .contentType | .provider | .country => none

section Extractors

variable {m : Occurrence} {value : Value}

/-- What is said comes from what was read, if anything is said. -/
theorem exists_of_map {α : Type} {read : Except Fault (Option α)} {say : Option α → Value}
    (silent : say none = .nothing) (said : read.map say = .ok value)
    (something : value ≠ .nothing) : ∃ x, read = .ok (some x) ∧ value = say (some x) := by
  rcases read with fault | (_ | x)
  · cases said
  · cases said
    exact absurd silent something
  · cases said
    exact ⟨x, rfl, rfl⟩

/-- What is said of two sides comes from both, if anything is said. -/
theorem exists_of_both {α : Type} {first second : Except Fault (Option α)}
    {say : Option α → Option α → Except Fault Value}
    (silent : ∀ other, say none other = .ok .nothing ∧ say other none = .ok .nothing)
    (said : (first.bind fun low => second.bind (say low)) = .ok value)
    (something : value ≠ .nothing) :
    ∃ low high, first = .ok (some low) ∧ second = .ok (some high) ∧
      say (some low) (some high) = .ok value := by
  rcases first with fault | low
  · cases said
  · rcases second with fault | high
    · cases said
    · change say low high = .ok value at said
      rcases low with _ | low
      · rw [(silent high).1] at said
        exact absurd (Except.ok.inj said).symm something
      · rcases high with _ | high
        · rw [(silent _).2] at said
          exact absurd (Except.ok.inj said).symm something
        · exact ⟨low, high, rfl, rfl, said⟩

theorem rating_on_scale {index : Nat} {x : Binary64} (read : groupRating m index = .ok (some x)) :
    isOnScale x = true := by
  unfold groupRating at read
  cases group : m.group index with
  | error fault =>
      rw [group] at read
      cases read
  | ok text =>
      rw [group] at read
      obtain ⟨chars, _, rated⟩ := Option.bind_eq_some_iff.mp (Except.ok.inj read)
      exact (Option.filter_eq_some_iff.mp rated).2

theorem lastRating_on_scale {x : Binary64} (read : lastRating m = .ok (some x)) :
    isOnScale x = true := by
  unfold lastRating at read
  split at read
  · exact rating_on_scale read
  · cases read

/-- A year was read from a group that has met four characters. -/
theorem exists_capture_of_groupYear {index : Nat} (numbered : index ≠ 0) {year : String}
    (read : groupYear m index = .ok (some year)) :
    ∃ text, (index, text) ∈ m.captures ∧ year = String.ofList text := by
  unfold groupYear Occurrence.group at read
  rw [if_neg numbered] at read
  split at read
  · cases read
  · obtain ⟨text, met, typed⟩ := Option.bind_eq_some_iff.mp (Except.ok.inj read)
    refine ⟨text, ?_, ?_⟩
    · obtain ⟨before, behind, split, _⟩ := List.lookup_eq_some_iff.mp met
      rw [split]
      simp
    · unfold year? at typed
      split at typed
      · exact (Option.some.inj typed).symm
      · cases typed

theorem exists_of_genre (read : genre m = .ok value) (something : value ≠ .nothing) :
    ∃ entry ∈ genreIds, value = .number entry.2 := by
  unfold genre at read
  cases group : m.group (m.lastGroup?.getD 0) with
  | error fault =>
      rw [group] at read
      cases read
  | ok word =>
      rw [group] at read
      cases named : Catalog.genreId? (word.getD []) with
      | none =>
          simp only [Except.map, named] at read
          exact absurd (Except.ok.inj read).symm something
      | some id =>
          simp only [Except.map, named] at read
          obtain ⟨before, behind, split, _⟩ := List.lookup_eq_some_iff.mp named
          have listed : (String.ofList (Catalog.foldedGenre (word.getD [])), id) ∈ genreIds := by
            rw [split]
            exact List.mem_append_right _ List.mem_cons_self
          exact ⟨_, listed, (Except.ok.inj read).symm⟩

/-- What an occurrence has in some groups is a year whenever it is read as one. -/
def ReadsYears (m : Occurrence) (indices : List Nat) : Prop :=
  ∀ index ∈ indices, ∀ year, groupYear m index = .ok (some year) → IsYear year

theorem yearFrom_sound (read : yearFrom m = .ok value) (something : value ≠ .nothing)
    (years : ReadsYears m [2]) : Kind.yearFrom.Allows value := by
  unfold yearFrom at read
  obtain ⟨year, group, rfl⟩ := exists_of_map rfl read something
  have sound := years 2 (by simp) year group
  exact ⟨_, rfl, by simp, by simpa using sound, by simp⟩

theorem yearTo_sound (read : yearTo m = .ok value) (something : value ≠ .nothing)
    (years : ReadsYears m [2]) : Kind.yearTo.Allows value := by
  unfold yearTo at read
  obtain ⟨year, group, rfl⟩ := exists_of_map rfl read something
  have sound := years 2 (by simp) year group
  exact ⟨_, rfl, by simp, by simp, by simpa using sound⟩

theorem yearExact_sound (read : yearExact m = .ok value) (something : value ≠ .nothing)
    (years : ReadsYears m [1]) : Kind.yearExact.Allows value := by
  unfold yearExact at read
  obtain ⟨year, group, rfl⟩ := exists_of_map rfl read something
  have sound := years 1 (by simp) year group
  exact ⟨_, rfl, by simp, by simpa using sound, by simpa using sound⟩

theorem yearRange_sound (read : yearRange m = .ok value) (something : value ≠ .nothing)
    (years : ReadsYears m [1, 2]) : Kind.yearRange.Allows value := by
  unfold yearRange at read
  obtain ⟨start, stop, groupStart, groupStop, said⟩ :=
    exists_of_both (fun other => by cases other <;> exact ⟨rfl, rfl⟩) read something
  have soundStart := years 1 (by simp) start groupStart
  have soundStop := years 2 (by simp) stop groupStop
  have valueEq : (if stop < start then .nothing else .years ⟨some start, some stop⟩) = value :=
    Except.ok.inj said
  split at valueEq
  · exact absurd valueEq.symm something
  · exact ⟨_, valueEq.symm, by simp, by simpa using soundStart, by simpa using soundStop⟩

theorem ratingMin_sound (read : ratingMin m = .ok value) (something : value ≠ .nothing) :
    Kind.ratingMin.Allows value := by
  unfold ratingMin at read
  obtain ⟨low, last, rfl⟩ := exists_of_map rfl read something
  exact ⟨_, rfl, by simp, by simpa using lastRating_on_scale last, by simp⟩

theorem ratingMax_sound (read : ratingMax m = .ok value) (something : value ≠ .nothing) :
    Kind.ratingMax.Allows value := by
  unfold ratingMax at read
  obtain ⟨high, last, rfl⟩ := exists_of_map rfl read something
  exact ⟨_, rfl, by simp, by simp, by simpa using lastRating_on_scale last⟩

theorem ratingRange_sound (read : ratingRange m = .ok value) (something : value ≠ .nothing) :
    Kind.ratingRange.Allows value := by
  unfold ratingRange at read
  obtain ⟨low, high, groupLow, groupHigh, said⟩ :=
    exists_of_both (fun other => by cases other <;> exact ⟨rfl, rfl⟩) read something
  have valueEq : (if high.lt low then .nothing else .ratings ⟨some low, some high⟩) = value :=
    Except.ok.inj said
  split at valueEq
  · exact absurd valueEq.symm something
  · exact ⟨_, valueEq.symm, by simp, by simpa using rating_on_scale groupLow,
      by simpa using rating_on_scale groupHigh⟩

end Extractors

end Extractor

/-- What a kind allows can be shown, if the first group can be asked for. -/
theorem exists_label {kind : Kind} {value : Value} {m : Occurrence} (allowed : kind.Allows value)
    (asked : ∃ met, m.group 1 = .ok met) : ∃ shown, label kind value m = .ok shown := by
  obtain ⟨met, group⟩ := asked
  cases kind with
  | contentType | genre => exact ⟨_, rfl⟩
  | country =>
      obtain ⟨_, _, rfl⟩ := allowed
      exact ⟨_, rfl⟩
  | yearFrom | yearTo | yearExact | yearRange =>
      obtain ⟨range, rfl, _⟩ := allowed
      exact ⟨_, rfl⟩
  | ratingMin | ratingMax | ratingFloor | ratingRange =>
      obtain ⟨range, rfl, _⟩ := allowed
      exact ⟨_, rfl⟩
  | provider | genreExclude =>
      rw [label, shownGroup, group]
      exact ⟨_, rfl⟩

/-- A rule has the extractor of its kind, or a fixed value that its kind allows. -/
structure Rule.IsOfKind (rule : Rule) : Prop where
  extractor : rule.extractor = Extractor.ofKind? rule.kind
  fixed : rule.extractor = none → rule.kind.Allows rule.fixed

namespace DefaultRules

theorem reading_isOfKind (text : String) {kind : Kind} {extractor : Extractor}
    (ofKind : Extractor.ofKind? kind = some extractor) :
    (reading text kind extractor).IsOfKind where
  extractor := ofKind.symm
  fixed none := by cases none

theorem contentType_isOfKind (text : String) (medium : Medium) :
    (meaning text .contentType (.text medium.name)).IsOfKind where
  extractor := rfl
  fixed _ := ⟨medium, rfl⟩

theorem naming_isOfKind (text : String) (provider : Provider) :
    (naming text provider).IsOfKind where
  extractor := rfl
  fixed _ := ⟨provider, rfl⟩

theorem located_isOfKind (text : String) {code : String} (region : code ∈ regionCodes) :
    (located text code).IsOfKind where
  extractor := rfl
  fixed _ := ⟨code, region, rfl⟩

theorem isOfKind : ∀ rule ∈ all, rule.IsOfKind := by
  simp only [all, contentTypes, years, ratings, providers, genres, regions, List.forall_mem_append,
    List.forall_mem_cons, List.not_mem_nil, IsEmpty.forall_iff, implies_true, and_true,
    naming_isOfKind]
  repeat' apply And.intro
  · exact contentType_isOfKind _ .movie
  · exact contentType_isOfKind _ .tv
  all_goals first
    | exact reading_isOfKind _ rfl
    | exact located_isOfKind _ (by decide)

variable {rule : Rule} {chars : List Char} {m : Occurrence} {value : Value}

/-- What is read as a year from a group that takes years is one. -/
theorem readsYears_of_found (mem : rule ∈ all) (found : m ∈ rule.shape.find chars)
    {indices : List Nat} (notes : rule.pattern.notesYears indices = true)
    (numbered : 0 ∉ indices) : Extractor.ReadsYears m indices := by
  intro index listed year read
  have positive : index ≠ 0 := by
    rintro rfl
    exact numbered listed
  obtain ⟨text, noted, rfl⟩ := Extractor.exists_capture_of_groupYear positive read
  rw [find_eq_occurrences mem] at found
  obtain ⟨body, isGroup, spelled⟩ := (Pattern.spells_of_mem_occurrences found).2 _ noted
  have only := List.all_eq_true.mp notes _ isGroup
  simp only [List.contains_iff_mem.mpr listed, Bool.not_true, Bool.false_or, beq_iff_eq] at only
  rw [only] at spelled
  rw [IsYear, String.toList_ofList]
  exact Pattern.digits_of_spells_year spelled

/-- Whatever a rule of record extracts from a phrase, its kind allows. -/
theorem allows_of_extract (mem : rule ∈ all) (found : m ∈ rule.shape.find chars)
    (extracted : rule.extract m = .ok value) (something : value ≠ .nothing) :
    rule.kind.Allows value := by
  have ofKind := isOfKind rule mem
  cases extractorEq : rule.extractor with
  | none =>
      rw [Rule.extract, extractorEq] at extracted
      cases extracted
      exact ofKind.fixed extractorEq
  | some extractor =>
      have read : extractor m = .ok value := by
        rwa [Rule.extract, extractorEq] at extracted
      have extractorOf := ofKind.extractor
      have regular := isRegular_of_mem mem
      rw [extractorEq] at extractorOf
      simp only [isRegular, Bool.and_eq_true] at regular
      generalize rule.kind = kind at extractorOf regular ⊢
      cases kind with
      | yearFrom =>
          cases extractorOf
          exact Extractor.yearFrom_sound read something
            (readsYears_of_found mem found regular.2 (by decide))
      | yearTo =>
          cases extractorOf
          exact Extractor.yearTo_sound read something
            (readsYears_of_found mem found regular.2 (by decide))
      | yearExact =>
          cases extractorOf
          exact Extractor.yearExact_sound read something
            (readsYears_of_found mem found regular.2 (by decide))
      | yearRange =>
          cases extractorOf
          have notes : rule.pattern.notesYears [1, 2] = true := by
            rw [eq_of_beq regular.2]
            decide
          exact Extractor.yearRange_sound read something
            (readsYears_of_found mem found notes (by decide))
      | ratingMin | ratingFloor =>
          cases extractorOf
          exact Extractor.ratingMin_sound read something
      | ratingMax =>
          cases extractorOf
          exact Extractor.ratingMax_sound read something
      | ratingRange =>
          cases extractorOf
          exact Extractor.ratingRange_sound read something
      | genre | genreExclude =>
          cases extractorOf
          exact Extractor.exists_of_genre read something
      | contentType | provider | country => cases extractorOf

end DefaultRules

end FilmQuery
