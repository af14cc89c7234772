/-
# The grammar of record

All that has to be known of the patterns of record to tell their phrases apart is settled on the
patterns themselves, once for all (`grammar`): every phrase can be told without what stands around
it, and no rule finds anything in a phrase of a later one.  There is one exception: a rating range
can contain a pair of numbers that looks like a range of years.
-/
import FilmQuery.Proofs.Pattern.Whole
import FilmQuery.Proofs.Rule.Phrases

namespace FilmQuery

open Text (isWord isDigit face)

/-- The pattern that a text writes. -/
def Pattern.ofText (text : List Char) : Pattern := (Pattern.read? text).getD .nothing

/-- The pattern of the phrases that a rule looks for. -/
def Rule.pattern (rule : Rule) : Pattern := .ofText rule.shape.text.toList

namespace Pattern

/-- A year: four digits. -/
def year : Pattern := .repeated 4 (some 4) true (.oneOf [.ofClass .digit])

/-- Two years with a hyphen between them. -/
def yearPair : Pattern :=
  .seq .boundary (.seq (.group 1 year) (.seq (.char '-') (.seq (.group 2 year) .boundary)))

/-- Whether all groups with one of some numbers are years. -/
def notesYears (indices : List Nat) (pattern : Pattern) : Bool :=
  pattern.groups.all fun (index, body) => !indices.contains index || body == year

end Pattern

namespace DefaultRules

/-- The rules of record as kinds and patterns. -/
def records : List (Kind × Pattern) :=
  (all.map fun rule => (rule.kind, rule.shape.text.toList)).map fun (kind, text) =>
    (kind, .ofText text)

section

variable (text : String) (kind : Kind) (extractor : Extractor)

theorem reading_kind : (reading text kind extractor).kind = kind := rfl

theorem meaning_kind (value : Value) : (meaning text kind value).kind = kind := rfl

theorem naming_kind (provider : Catalog.Provider) : (naming text provider).kind = .provider := rfl

theorem located_kind (code : String) : (located text code).kind = .country := rfl

end

/-- What can be said of a pattern of record by itself. -/
def isRegular : Kind × Pattern → Bool
  | (kind, pattern) => pattern.standsAlone && match kind with
    | .yearFrom | .yearTo => pattern.notesYears [2]
    | .yearExact => pattern.notesYears [1]
    | .yearRange => pattern == .yearPair
    | .ratingRange =>
      pattern.sealsWord && pattern.most '-' == some 1 &&
        pattern.profile.ends.all fun (first, _) => first != '0'
    | _ => true

/-- What can be said of a pattern of record and a later one. -/
def areDistinct : Kind × Pattern → Kind × Pattern → Bool
  | (kind, pattern), (later, other) =>
    pattern.hasOutline && other.hasOutline &&
      (pattern.isForeignTo other || kind == .yearRange && later == .ratingRange) &&
      (later != .ratingRange || pattern.asksForWords)

/-- Whether the group that labels of a kind show has met something in every phrase, if there is such
a group; it is the only one. -/
def showsGroup : Kind × Pattern → Bool
  | (.provider, pattern) | (.genreExclude, pattern) =>
    pattern.alwaysMeets 1 && pattern.groups.all fun (index, _) => index == 1
  | _ => true

/-- Whether two patterns of providers can be told apart by what their groups have met. -/
def areToldApart : Kind × Pattern → Kind × Pattern → Bool
  | (.provider, pattern), (.provider, other) =>
    pattern.groups.all fun (_, body) => other.groups.all fun (_, body') =>
      body.hasOutline && body'.hasOutline && body.isForeignTo body'
  | _, _ => true

theorem grammar :
    (∀ entry ∈ records, isRegular entry = true) ∧
      (records.Pairwise fun earlier later => areDistinct earlier later = true) ∧
        (∀ entry ∈ records, showsGroup entry = true) ∧
          records.Pairwise fun earlier later => areToldApart earlier later = true := by
  simp only [records, all, contentTypes, years, ratings, providers, genres, regions, List.map_cons,
    List.map_nil, List.cons_append, List.nil_append, reading_shape, meaning_shape, naming_shape,
    located_shape, phrase_text, reading_kind, meaning_kind, naming_kind, located_kind, rating]
  delta Catalog.genreWords
  simp only [String.toList_append, String.reduceToList]
  decide +kernel

variable {rule later : Rule} {j k : Nat} {chars : List Char} {m : Occurrence}

theorem find_eq_occurrences (mem : rule ∈ all) :
    rule.shape.find chars = rule.pattern.occurrences true chars := by
  rw [shape_eq_phrase rule mem]
  rfl

theorem getElem?_records (k : Nat) :
    records[k]? = all[k]?.map fun rule => (rule.kind, rule.pattern) := by
  rw [records, List.map_map, List.getElem?_map]
  rfl

theorem mem_records (mem : rule ∈ all) : (rule.kind, rule.pattern) ∈ records := by
  rw [records, List.map_map]
  exact List.mem_map_of_mem mem

theorem isRegular_of_mem (mem : rule ∈ all) : isRegular (rule.kind, rule.pattern) = true :=
  grammar.1 _ (mem_records mem)

theorem showsGroup_of_mem (mem : rule ∈ all) : showsGroup (rule.kind, rule.pattern) = true :=
  grammar.2.2.1 _ (mem_records mem)

/-- What holds of any pattern of record and a later one. -/
theorem apart_of_lt {apart : Kind × Pattern → Kind × Pattern → Bool}
    (pairwise : records.Pairwise fun earlier later => apart earlier later = true) (lt : j < k)
    (first : all[j]? = some rule) (second : all[k]? = some later) :
    apart (rule.kind, rule.pattern) (later.kind, later.pattern) = true := by
  have entries (i : Nat) : records[i]? = all[i]?.map fun rule => (rule.kind, rule.pattern) :=
    getElem?_records i
  have length : records.length = all.length := by simp [records]
  obtain ⟨inRangeJ, _⟩ := List.getElem?_eq_some_iff.mp first
  obtain ⟨inRangeK, _⟩ := List.getElem?_eq_some_iff.mp second
  have apart := List.pairwise_iff_getElem.mp pairwise j k (by omega) (by omega) lt
  have entryJ := entries j
  have entryK := entries k
  rw [first, List.getElem?_eq_getElem (by omega)] at entryJ
  rw [second, List.getElem?_eq_getElem (by omega)] at entryK
  rwa [Option.some.inj entryJ, Option.some.inj entryK] at apart

theorem areDistinct_of_lt (lt : j < k) (first : all[j]? = some rule)
    (second : all[k]? = some later) :
    areDistinct (rule.kind, rule.pattern) (later.kind, later.pattern) = true :=
  apart_of_lt grammar.2.1 lt first second

theorem areToldApart_of_lt (lt : j < k) (first : all[j]? = some rule)
    (second : all[k]? = some later) :
    areToldApart (rule.kind, rule.pattern) (later.kind, later.pattern) = true :=
  apart_of_lt grammar.2.2.2 lt first second

theorem standsAlone_of_mem (mem : rule ∈ all) : rule.pattern.standsAlone = true := by
  have regular := isRegular_of_mem mem
  simp only [isRegular, Bool.and_eq_true] at regular
  exact regular.1

/-- A phrase of record that is cut out of its text is found again, and nothing else is found. -/
theorem find_alone (mem : rule ∈ all) (found : m ∈ rule.shape.find chars) :
    rule.shape.find m.text = [{ m with start := 0, stop := m.text.length }] := by
  rw [find_eq_occurrences mem] at found ⊢
  exact Pattern.occurrences_alone (standsAlone_of_mem mem) found

/-- In a phrase of a later rule an earlier one finds nothing, unless it looks for years and the
phrase is a range of ratings. -/
theorem find_eq_nil_or (lt : j < k) (first : all[j]? = some rule) (second : all[k]? = some later)
    (found : m ∈ later.shape.find chars) :
    rule.shape.find m.text = [] ∨ rule.kind = .yearRange ∧ later.kind = .ratingRange := by
  have distinct := areDistinct_of_lt lt first second
  simp only [areDistinct, Bool.and_eq_true, Bool.or_eq_true, beq_iff_eq] at distinct
  obtain ⟨⟨⟨drawn, drawnLater⟩, foreign | exception⟩, _⟩ := distinct
  · left
    rw [find_eq_occurrences (List.mem_of_getElem? second)] at found
    rw [find_eq_occurrences (List.mem_of_getElem? first), List.eq_nil_iff_forall_not_mem]
    intro n mem
    have lies := (rule.pattern.occurrences_inOrder true m.text).liesIn n mem
    have isPart : n.text <:+: m.text := by
      rw [lies.text_eq]
      exact (List.take_prefix _ _).isInfix.trans (List.drop_suffix _ _).isInfix
    exact Pattern.not_spells_of_isForeignTo drawn drawnLater foreign
      (Pattern.spells_of_mem_occurrences found).1 isPart (Pattern.spells_of_mem_occurrences mem).1
  · exact .inr exception

/-- Before ranges of ratings are looked for, all that is found are whole words. -/
theorem isWhole_of_lt (lt : j < k) (first : all[j]? = some rule) (second : all[k]? = some later)
    (ratings : later.kind = .ratingRange) (found : m ∈ rule.shape.find chars) :
    m.IsWhole chars := by
  have distinct := areDistinct_of_lt lt first second
  simp only [areDistinct, ratings, Bool.and_eq_true, Bool.or_eq_true] at distinct
  rw [find_eq_occurrences (List.mem_of_getElem? first)] at found
  exact Pattern.isWhole_of_mem (distinct.2.resolve_left (by decide)) found

end DefaultRules

end FilmQuery
