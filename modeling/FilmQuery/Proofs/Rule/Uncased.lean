/-
# Rules without case

What an occurrence says does not depend on the case of its Latin letters: years have none, ratings
have none that matter, and the words for genres are folded before they are looked up.  So a rule of
record reads the same value off both (`extract_uncased`), and shows it in words that differ in case
only (`label_uncased`).
-/
import FilmQuery.Proofs.Number.Uncased
import FilmQuery.Proofs.Pattern.Uncased
import FilmQuery.Proofs.Rule.Values

namespace FilmQuery

open Text (uncased)

theorem toList_toLower (s : String) : s.toLower.toList = uncased s.toList :=
  String.toList_map

/-- A text without the case of its Latin letters, as a string. -/
theorem toLower_ofList (text : List Char) :
    (String.ofList text).toLower = String.ofList (uncased text) := by
  rw [← String.toList_inj, toList_toLower, String.toList_ofList, String.toList_ofList]

theorem toLower_ofList_uncased (text : List Char) :
    (String.ofList (uncased text)).toLower = (String.ofList text).toLower := by
  rw [toLower_ofList, toLower_ofList, Text.uncased_uncased]

theorem toLower_append (first second : String) :
    (first ++ second).toLower = first.toLower ++ second.toLower := by
  rw [← String.toList_inj, String.toList_append, toList_toLower, toList_toLower, toList_toLower,
    String.toList_append, uncased, List.map_append]
  rfl

theorem Catalog.genreId?_uncased (word : List Char) : genreId? (uncased word) = genreId? word := by
  have folded :
      (uncased (Text.trim word)).flatMap Text.fold = (Text.trim word).flatMap Text.fold := by
    simp [uncased, List.flatMap_map]
  rw [genreId?, foldedGenre, Text.trim_uncased, folded]
  rfl

namespace Occurrence

variable (m : Occurrence)

theorem group_uncased (index : Nat) :
    m.uncased.group index = (m.group index).map (Option.map Text.uncased) := by
  have noted : m.uncased.captures.lookup index = (m.captures.lookup index).map Text.uncased := by
    show (m.captures.map _).lookup index = _
    induction m.captures with
    | nil => rfl
    | cons capture captures ih =>
        rw [List.map_cons, List.lookup_cons, List.lookup_cons, ih]
        split <;> rfl
  rw [group, group, noted]
  split
  · rfl
  · show (if m.groupCount < index then _ else _) = _
    split <;> rfl

theorem lastGroup?_uncased : m.uncased.lastGroup? = m.lastGroup? := by
  simp [lastGroup?, uncased, Function.comp_def]

end Occurrence

namespace Extractor

variable (m : Occurrence)

theorem year?_uncased (text : List Char) : year? (uncased text) = year? text := by
  rw [year?, year?, Text.length_uncased, Number.Numeral.integer?_uncased]
  split
  next typed => rw [Number.Numeral.uncased_of_integer? typed.2]
  next => rfl

theorem rating?_uncased (text : List Char) : rating? (uncased text) = rating? text := by
  rw [rating?, rating?, Number.Numeral.real?_uncased]

theorem map_bind_uncased {α : Type} {read : List Char → Option α}
    (blind : ∀ text, read (uncased text) = read text) (met : Except Fault (Option (List Char))) :
    (met.map (Option.map uncased)).map (·.bind read) = met.map (·.bind read) := by
  rcases met with fault | (_ | text)
  · rfl
  · rfl
  · exact congrArg Except.ok (blind text)

theorem groupYear_uncased (index : Nat) : groupYear m.uncased index = groupYear m index := by
  rw [groupYear, m.group_uncased, map_bind_uncased year?_uncased, groupYear]

theorem groupRating_uncased (index : Nat) : groupRating m.uncased index = groupRating m index := by
  rw [groupRating, m.group_uncased, map_bind_uncased rating?_uncased, groupRating]

theorem lastRating_uncased : lastRating m.uncased = lastRating m := by
  rw [lastRating, m.lastGroup?_uncased, lastRating]
  simp only [groupRating_uncased]

theorem genre_uncased : genre m.uncased = genre m := by
  rw [genre, m.lastGroup?_uncased, m.group_uncased, genre]
  rcases m.group (m.lastGroup?.getD 0) with fault | (_ | word)
  · rfl
  · rfl
  · simp only [Except.map, Option.map_some, Option.getD_some, Catalog.genreId?_uncased]

/-- The extractors of the kinds do not see case. -/
theorem ofKind?_uncased {kind : Kind} {extractor : Extractor}
    (ofKind : ofKind? kind = some extractor) : extractor m.uncased = extractor m := by
  cases kind <;> cases ofKind
  · simp only [yearFrom, groupYear_uncased]
  · simp only [yearTo, groupYear_uncased]
  · simp only [yearExact, groupYear_uncased]
  · simp only [yearRange, groupYear_uncased]
  · simp only [ratingMin, lastRating_uncased]
  · simp only [ratingMax, lastRating_uncased]
  · simp only [ratingMin, lastRating_uncased]
  · simp only [ratingRange, groupRating_uncased]
  · exact genre_uncased m
  · exact genre_uncased m

end Extractor

/-- What a rule of record reads off an occurrence does not depend on case. -/
theorem Rule.extract_uncased {rule : Rule} (ofKind : rule.IsOfKind) (m : Occurrence) :
    rule.extract m.uncased = rule.extract m := by
  rw [extract, extract]
  cases extractorEq : rule.extractor with
  | none => rfl
  | some extractor =>
      exact Extractor.ofKind?_uncased m (ofKind.extractor.symm.trans extractorEq)

theorem shownGroup_uncased (m : Occurrence) (title : String) :
    ((shownGroup m.uncased 1).map (title ++ ·)).map String.toLower =
      ((shownGroup m 1).map (title ++ ·)).map String.toLower := by
  rw [shownGroup, shownGroup, m.group_uncased]
  rcases m.group 1 with fault | (_ | text)
  · rfl
  · rfl
  · refine congrArg Except.ok ?_
    rw [toLower_append, toLower_append]
    exact congrArg _ (toLower_ofList_uncased text)

/-- The labels of an occurrence with and without case differ in case only. -/
theorem label_uncased (kind : Kind) (value : Value) (m : Occurrence) :
    (label kind value m.uncased).map String.toLower = (label kind value m).map String.toLower := by
  have phrase := toLower_ofList_uncased m.text
  have years (range : YearRange) : (yearLabel kind range (String.ofList (uncased m.text))).toLower =
      (yearLabel kind range (String.ofList m.text)).toLower := by
    unfold yearLabel
    split <;> first | rfl | exact phrase
  have ratings (range : RatingRange) :
      (ratingLabel kind range (String.ofList (uncased m.text))).toLower =
        (ratingLabel kind range (String.ofList m.text)).toLower := by
    unfold ratingLabel
    split <;> first | rfl | exact phrase
  cases kind with
  | contentType => rfl
  | country => rfl
  | yearFrom | yearTo | yearExact | yearRange =>
      cases value with
      | years range => exact congrArg Except.ok (years range)
      | plain value => rfl
      | numbers ns => rfl
      | ratings range => rfl
  | ratingMin | ratingMax | ratingFloor | ratingRange =>
      cases value with
      | ratings range => exact congrArg Except.ok (ratings range)
      | plain value => rfl
      | numbers ns => rfl
      | years range => rfl
  | provider => exact shownGroup_uncased m "On: "
  | genreExclude => exact shownGroup_uncased m "Exclude: "
  | genre =>
      refine congrArg Except.ok ?_
      rw [toLower_append, toLower_append]
      exact congrArg _ phrase

/-- Without case a rule of record finds the same phrases. -/
theorem DefaultRules.find_uncased {rule : Rule} (mem : rule ∈ all) (chars : List Char) :
    rule.shape.find (uncased chars) = (rule.shape.find chars).map Occurrence.uncased := by
  rw [find_eq_occurrences mem, find_eq_occurrences mem, Pattern.occurrences_uncased]

end FilmQuery
