/-
# What phrases say

An extractor reads the value of a phrase off what its groups have met.  Four digits of any script
are a year (`groupYear_eq`), a numeral for a number up to ten is the rating that is the double of
that number (`groupRating_eq`), and a genre word names its genre in either case and with any blanks
(`genreId?_of_named`).
-/
import FilmQuery.Proofs.Rule.Forms
import FilmQuery.Proofs.Rule.Uncased
import Mathlib.Algebra.Order.Field.Power

namespace FilmQuery

open Number (Binary64 Decimal)
open Number.Numeral (IsDigits Typed integer?_eq_numberOf real?_of_typed)
open Text (fold isBlank isBlank_toLower trim uncased)

/-- A numeral for a number up to ten, and the decimal that it writes. -/
structure IsRating (text : List Char) (d : Decimal) : Prop where
  typed : Typed text d
  onScale : d.toRatio.value ≤ 10

/-- What is no larger is not less. -/
theorem Number.Binary64.lt_eq_false_of_le {x y : Binary64} (le : x.le y = true) :
    y.lt x = false := by
  unfold Binary64.le at le
  unfold Binary64.lt
  split at le
  next a b left right =>
    rw [left, right]
    simpa using le
  next => cases le

namespace Extractor

variable {m : Occurrence} {index : Nat} {text other : List Char} {d d' : Decimal}

theorem year?_eq (year : Part.year.Writes text) : year? text = some (String.ofList text) := by
  obtain ⟨four, digits⟩ := year
  have nonempty : text ≠ [] := by
    rintro rfl
    cases four
  have whole := integer?_eq_numberOf ⟨nonempty, digits⟩ (by rw [four]; decide)
  rw [year?, if_pos ⟨four, by rw [whole, Option.isSome_some]⟩]

theorem groupYear_eq (met : m.group index = .ok (some text)) (year : Part.year.Writes text) :
    groupYear m index = .ok (some (String.ofList text)) := by
  rw [groupYear, met, Except.map, Option.bind_some, year?_eq year]

/-- No number that a decimal writes is negative. -/
theorem zero_le_toBinary64 (d : Decimal) : Binary64.zero.le d.toBinary64 = true := by
  have zero : Binary64.zero = Decimal.toBinary64 ⟨0, 0⟩ := by decide
  rw [zero]
  apply Binary64.toBinary64_le
  rw [Decimal.value_toRatio, Decimal.value_toRatio, Nat.cast_zero, zero_mul]
  positivity

/-- A number up to ten is on the scale. -/
theorem isOnScale_toBinary64 (scale : d.toRatio.value ≤ 10) : isOnScale d.toBinary64 = true := by
  have high : Binary64.ofInt 10 = Decimal.toBinary64 ⟨10, 0⟩ := by decide
  rw [isOnScale, zero_le_toBinary64, Bool.true_and, high]
  apply Binary64.toBinary64_le
  rw [Decimal.value_toRatio ⟨10, 0⟩]
  simpa using scale

theorem groupRating_eq (met : m.group index = .ok (some text)) (rating : IsRating text d) :
    groupRating m index = .ok (some d.toBinary64) := by
  rw [groupRating, met, Except.map, Option.bind_some, rating?, real?_of_typed rating.typed,
    Option.filter_some, if_pos (isOnScale_toBinary64 rating.onScale)]

theorem lastRating_eq (last : m.lastGroup? = some index) (met : m.group index = .ok (some text))
    (rating : IsRating text d) : lastRating m = .ok (some d.toBinary64) := by
  rw [lastRating, last]
  exact groupRating_eq met rating

theorem yearFrom_eq (met : m.group 2 = .ok (some text)) (year : Part.year.Writes text) :
    yearFrom m = .ok (.years ⟨some (String.ofList text), none⟩) := by
  rw [yearFrom, groupYear_eq met year]
  rfl

theorem yearTo_eq (met : m.group 2 = .ok (some text)) (year : Part.year.Writes text) :
    yearTo m = .ok (.years ⟨none, some (String.ofList text)⟩) := by
  rw [yearTo, groupYear_eq met year]
  rfl

theorem yearExact_eq (met : m.group 1 = .ok (some text)) (year : Part.year.Writes text) :
    yearExact m = .ok (.years ⟨some (String.ofList text), some (String.ofList text)⟩) := by
  rw [yearExact, groupYear_eq met year]
  rfl

theorem yearRange_eq (met : m.group 1 = .ok (some text)) (met' : m.group 2 = .ok (some other))
    (year : Part.year.Writes text) (year' : Part.year.Writes other)
    (order : String.ofList text ≤ String.ofList other) :
    yearRange m = .ok (.years ⟨some (String.ofList text), some (String.ofList other)⟩) := by
  rw [yearRange, groupYear_eq met year, groupYear_eq met' year']
  simp only [bind, Except.bind, if_neg (String.not_lt.mpr order)]
  rfl

theorem ratingMin_eq (last : m.lastGroup? = some index) (met : m.group index = .ok (some text))
    (rating : IsRating text d) : ratingMin m = .ok (.ratings ⟨some d.toBinary64, none⟩) := by
  rw [ratingMin, lastRating_eq last met rating]
  rfl

theorem ratingMax_eq (last : m.lastGroup? = some index) (met : m.group index = .ok (some text))
    (rating : IsRating text d) : ratingMax m = .ok (.ratings ⟨none, some d.toBinary64⟩) := by
  rw [ratingMax, lastRating_eq last met rating]
  rfl

theorem ratingRange_eq (met : m.group 1 = .ok (some text)) (met' : m.group 2 = .ok (some other))
    (rating : IsRating text d) (rating' : IsRating other d')
    (order : d.toRatio.value ≤ d'.toRatio.value) :
    ratingRange m = .ok (.ratings ⟨some d.toBinary64, some d'.toBinary64⟩) := by
  have upward := Binary64.lt_eq_false_of_le (Binary64.toBinary64_le order)
  rw [ratingRange, groupRating_eq met rating, groupRating_eq met' rating']
  simp only [bind, Except.bind, upward]
  rfl

theorem genre_eq (last : m.lastGroup? = some index) (met : m.group index = .ok (some text))
    {id : Int} (named : Catalog.genreId? text = some id) : genre m = .ok (.number id) := by
  rw [genre, last, Option.getD_some, met]
  simp only [Except.map, Option.getD_some, named]

end Extractor

namespace Catalog

/-- A blank is its own folded form. -/
theorem fold_of_isBlank {c : Char} (blank : isBlank c = true) : fold c = [c] := by
  have folded : ∀ run ∈ Text.blankRuns, ∀ n < run.2 + 1 - run.1,
      fold (Char.ofNat (run.1 + n)) = [Char.ofNat (run.1 + n)] := by
    decide +kernel
  obtain ⟨run, mem, first, last⟩ := Text.CodeRuns.exists_mem_of_covers blank
  have here := folded run mem (c.toNat - run.1) (by omega)
  rwa [Nat.add_sub_cancel' first, Char.ofNat_toNat] at here

variable {word gap : List Char}

theorem squeeze_word (blankless : word.any isBlank = false) (rest : List Char) :
    squeeze false (word ++ rest) = word ++ squeeze false rest := by
  induction word with
  | nil => rfl
  | cons c word ih =>
      obtain ⟨here, later⟩ := Bool.or_eq_false_iff.mp blankless
      rw [List.cons_append, squeeze, here, if_neg Bool.false_ne_true, ih later, List.cons_append]

theorem squeeze_blanks (blank : ∀ c ∈ gap, isBlank c = true) (rest : List Char) :
    squeeze true (gap ++ rest) = squeeze true rest := by
  induction gap with
  | nil => rfl
  | cons c gap ih =>
      obtain ⟨here, later⟩ := List.forall_mem_cons.mp blank
      rw [List.cons_append, squeeze, if_pos here, if_pos rfl, ih later]

/-- Blanks are squeezed to one space. -/
theorem squeeze_gap (isGap : Part.IsGap gap) (rest : List Char) :
    squeeze false (gap ++ rest) = ' ' :: squeeze true rest := by
  obtain ⟨c, more, rfl⟩ := List.exists_cons_of_ne_nil isGap.nonempty
  obtain ⟨here, later⟩ := List.forall_mem_cons.mp isGap.blank
  rw [List.cons_append, squeeze, if_pos here, if_neg Bool.false_ne_true, squeeze_blanks later]

theorem foldedGenre_scienceFiction (isGap : Part.IsGap gap) :
    foldedGenre ("science".toList ++ (gap ++ "fiction".toList)) = "science fiction".toList := by
  have first : isBlank 's' = false := by decide
  have last : isBlank 'n' = false := by decide
  have trimmed : trim ("science".toList ++ (gap ++ "fiction".toList)) =
      "science".toList ++ (gap ++ "fiction".toList) := by
    simp [trim, first, last]
  have folded : gap.flatMap fold = gap := by
    rw [List.flatMap_congr fun c mem => fold_of_isBlank (isGap.blank c mem),
      List.flatMap_singleton']
  have front : "science".toList.flatMap fold = "science".toList := by decide +kernel
  have behind : "fiction".toList.flatMap fold = "fiction".toList := by decide +kernel
  rw [foldedGenre, trimmed, List.flatMap_append, List.flatMap_append, folded, front, behind,
    squeeze_word (by decide), squeeze_gap isGap]
  decide +kernel

end Catalog

namespace DefaultRules

/-- What is written for a genre word names its genre. -/
theorem genreId?_of_named {parts : List Part} {id : Int} (named : (parts, id) ∈ genreNames)
    {texts : List (List Char)} (writes : List.Forall₂ Part.Writes parts texts) :
    Catalog.genreId? texts.flatten = some id := by
  have words : ∀ entry ∈ genreWords, ∀ word ∈ entry.1,
      Catalog.genreId? word.toList = some entry.2 := by
    decide +kernel
  rcases List.mem_cons.mp named with same | listed
  · cases same
    obtain ⟨science, gap, fiction, rfl⟩ : ∃ a b c, texts = [a, b, c] :=
      List.length_eq_three.mp writes.length_eq.symm
    simp only [List.forall₂_cons] at writes
    obtain ⟨⟨_, first, scienceEq⟩, isGap, ⟨_, second, fictionEq⟩, _⟩ := writes
    rw [List.mem_singleton.mp first] at scienceEq
    rw [List.mem_singleton.mp second] at fictionEq
    have small : Part.IsGap (uncased gap) := by
      refine ⟨by simpa [uncased] using isGap.nonempty, ?_⟩
      simpa [uncased] using isGap.blank
    have whole : uncased [science, gap, fiction].flatten =
        "science".toList ++ (uncased gap ++ "fiction".toList) := by
      rw [← scienceEq, ← fictionEq]
      simp [uncased]
    rw [← Catalog.genreId?_uncased, whole, Catalog.genreId?,
      Catalog.foldedGenre_scienceFiction small]
    decide +kernel
  · obtain ⟨entry, mem, same⟩ := List.mem_map.mp listed
    cases same
    obtain ⟨text, rfl⟩ := List.length_eq_one_iff.mp writes.length_eq.symm
    simp only [List.forall₂_cons] at writes
    obtain ⟨⟨word, isWord, typed⟩, _⟩ := writes
    rw [List.flatten_singleton, ← Catalog.genreId?_uncased, typed]
    exact words entry mem word isWord

variable {rule : Rule} {notes : List Note} {texts : List (List Char)}

/-- A group that is noted has met the text of the parts. -/
theorem group_spoken (numbered : ∀ note ∈ notes, 0 < note.1 ∧ note.1 ≤ rule.pattern.groupCount)
    {index : Nat} {text : List Char}
    (met : (notes.map (Note.met texts)).lookup index = some text) :
    (spoken rule notes texts).group index = .ok (some text) := by
  obtain ⟨before, behind, split, _⟩ := List.lookup_eq_some_iff.mp met
  have listed : (index, text) ∈ notes.map (Note.met texts) := by
    rw [split]
    exact List.mem_append_right _ List.mem_cons_self
  obtain ⟨note, mem, noted⟩ := List.mem_map.mp listed
  obtain ⟨positive, within⟩ := numbered note mem
  obtain rfl : note.1 = index := congrArg Prod.fst noted
  have present : ¬ (spoken rule notes texts).groupCount < note.1 := Nat.not_lt.mpr within
  rw [Occurrence.group, if_neg (Nat.ne_of_gt positive), if_neg present]
  exact congrArg Except.ok met

end DefaultRules

end FilmQuery
