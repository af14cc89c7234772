/-
# Numerals at the end of a phrase

Phrases about ratings end with a numeral, behind which only a plus may come.  A numeral is taken
with its point and all of its places if no word goes on behind these (`seek_numeral`).  So a rating
is never read from the first part of a decimal, unless the decimal runs into a word or has a second
point (`numerals_readOut`).
-/
import FilmQuery.Proofs.Number.Typed
import FilmQuery.Proofs.Pattern.Closing
import FilmQuery.Proofs.Pattern.Runs
import FilmQuery.Proofs.Query.Turns
import FilmQuery.Proofs.Rule.Values

namespace FilmQuery

open Number.Numeral (IsDigits Typed)
open PlacedText
open Text (isDigit isWord isWord_of_isDigit sameLetter)

namespace Pattern

/-- Digits. -/
def digits : Pattern := .repeated 1 none true (.oneOf [.ofClass .digit])

/-- Digits, and perhaps a point and more digits. -/
def numeral : Pattern :=
  .seq digits (.repeated 0 (some 1) true (.seq (.char '.') digits))

/-- A numeral that ends with a word. -/
def lastNumeral (index : Nat) : Pattern := .seq (.group index numeral) .boundary

/-- A numeral with a plus behind it. -/
def raisedNumeral (index : Nat) : Pattern := .seq (.group index numeral) (.char '+')

variable {index : Nat} {pattern : Pattern} {p q r : Place}

section Numerals

variable {text places behind : List Char} {onward : Onward}

theorem isDigits_of_spells (spelled : digits.Spells true text) : IsDigits text := by
  obtain ⟨parts, single, least, _, rfl⟩ := spelled
  constructor
  · obtain ⟨part, others, rfl⟩ := List.exists_cons_of_ne_nil (List.ne_nil_of_length_pos least)
    obtain ⟨c, rfl, _⟩ := single _ List.mem_cons_self
    simp
  · intro c mem
    obtain ⟨part, inParts, inPart⟩ := List.mem_flatten.mp mem
    obtain ⟨d, rfl, has⟩ := single part inParts
    rw [List.mem_singleton.mp inPart]
    simpa [isIn, CharClass.has] using has

/-- A numeral without a point is digits, and one with a point has digits on both sides of it. -/
theorem isDigits_or_of_spells (spelled : numeral.Spells true text) :
    IsDigits text ∨ ∃ front places, IsDigits front ∧ IsDigits places ∧
      text = front ++ '.' :: places := by
  obtain ⟨front, _, ofFront, ⟨parts, single, _, most, rfl⟩, rfl⟩ := spelled
  have few := most 1 rfl
  rcases parts with _ | ⟨part, _ | ⟨_, _⟩⟩
  · exact .inl (by simpa using isDigits_of_spells ofFront)
  · obtain ⟨_, places, ⟨point, rfl, same⟩, ofPlaces, rfl⟩ := single _ List.mem_cons_self
    have pointEq : point = '.' := Text.eq_of_sameLetter (by decide) same
    exact .inr ⟨front, places, isDigits_of_spells ofFront, isDigits_of_spells ofPlaces,
      by simp [pointEq]⟩
  · simp at few

/-- Digits are taken as far as they go, if that leads on. -/
theorem seek_digits (run : IsDigits text) (split : p.rest = text ++ behind)
    (stops : behind.head?.any isDigit = false) (found : onward (p.past text.length) = some q) :
    digits.seek true onward p = some q := by
  have test : isIn true [.ofClass .digit] = isDigit := by
    funext c
    simp [isIn, CharClass.has]
  show seekMany (isIn true [.ofClass .digit]) 1 onward p = some q
  rw [test]
  exact seekMany_run (Nat.le_refl 1) run.nonempty split run.digit stops found

/-- A numeral is taken with its point and with all its places, if that leads on. -/
theorem seek_numeral (run : IsDigits text) (more : IsDigits places)
    (split : p.rest = text ++ '.' :: (places ++ behind))
    (stops : behind.head?.any isDigit = false)
    (found : onward (p.past (text.length + (1 + places.length))) = some q) :
    numeral.seek true onward p = some q := by
  have atPoint : (p.past text.length).rest = '.' :: (places ++ behind) := by
    rw [Place.past, split, List.drop_left]
  have behindPoint : ((p.past text.length).past 1).rest = places ++ behind := by
    rw [Place.past, atPoint, List.drop_one, List.tail_cons]
  have point : sameLetter '.' '.' = true := by decide
  have stopsAtPoint : isDigit '.' = false := by decide
  apply seek_digits run split (by rw [List.head?_cons, Option.any_some, stopsAtPoint])
  show seekFurther (seek true (.seq (.char '.') digits)) true 1 onward (p.past text.length) = some q
  rw [seekFurther_one, seek, seek, seekChar_cons atPoint, if_pos rfl, if_pos point,
    seek_digits more behindPoint stops (by rwa [Place.past_past, Place.past_past]), orElse]

end Numerals

/-- Whether a numeral is all that could be read of a decimal: if a point and a digit come behind it,
it has a point of its own, or the places behind the point run into a word. -/
def IsReadOut (numeral behind : List Char) : Prop :=
  ∀ d more, behind = '.' :: d :: more → isDigit d = true →
    '.' ∈ numeral ∨ (more.dropWhile isDigit).head?.any isWord = true

section LastNumeral

variable {text : List Char}

/-- A numeral and all its places are taken where no word goes on behind the places. -/
theorem position_of_lastNumeral {places behind : List Char} (run : IsDigits text)
    (more : IsDigits places) (split : p.rest = text ++ '.' :: (places ++ behind))
    (stops : behind.head?.any isWord = false)
    (first : ((lastNumeral index).ways true p).head? = some r) :
    r.position = p.position + (text.length + (1 + places.length)) := by
  let stop := p.past (text.length + (1 + places.length))
  have taken : p.rest.take (text.length + (1 + places.length)) = text ++ '.' :: places := by
    rw [split, List.take_append, List.take_of_length_le (by omega)]
    simp [Nat.add_comm 1]
  have rest : stop.rest = behind := by
    show p.rest.drop _ = behind
    rw [split, ← List.drop_drop, List.drop_left, Nat.add_comm, List.drop_succ_cons, List.drop_left]
  have previous : stop.previous.any isWord = true := by
    obtain ⟨c, last⟩ : ∃ c, places.getLast? = some c :=
      ⟨_, List.getLast?_eq_getLast_of_ne_nil more.nonempty⟩
    show ((p.rest.take _).getLast?.or p.previous).any isWord = true
    rw [taken, List.getLast?_append, List.getLast?_cons, last, Option.getD_some, Option.some_or,
      Option.some_or, Option.any_some]
    exact isWord_of_isDigit (more.digit c (List.mem_of_getLast? last))
  have atBoundary : (p.remember index stop).isBoundary = true := by
    show (stop.previous.any isWord != stop.rest.head?.any isWord) = true
    rw [previous, rest, stops]
    rfl
  have noDigit : behind.head?.any isDigit = false := by
    cases head : behind.head? with
    | none => rfl
    | some c =>
        rw [head, Option.any_some] at stops
        rw [Option.any_some, Bool.eq_false_iff]
        intro digit
        rw [isWord_of_isDigit digit] at stops
        cases stops
  have found : (lastNumeral index).seek true some p = some (p.remember index stop) := by
    rw [lastNumeral, seek, seek]
    apply seek_numeral run more split noDigit
    rw [seek, if_pos atBoundary]
  rw [head?_ways, found] at first
  cases first
  rfl

/-- The numeral that a pattern takes last is all that could be read of a decimal. -/
theorem isReadOut_of_lastNumeral (first : ((lastNumeral index).ways true p).head? = some r)
    (spelled : numeral.Spells true text) (takes : p.Takes text r) : IsReadOut text r.rest := by
  intro d more behind digit
  by_contra missed
  rw [not_or, Bool.not_eq_true] at missed
  obtain ⟨noPoint, noWord⟩ := missed
  have run : IsDigits text := by
    refine (isDigits_or_of_spells spelled).resolve_right ?_
    rintro ⟨front, places, _, _, rfl⟩
    exact noPoint (List.mem_append_right _ List.mem_cons_self)
  have places : IsDigits (d :: more.takeWhile isDigit) := by
    refine ⟨List.cons_ne_nil _ _, List.forall_mem_cons.mpr ⟨digit, fun c mem => ?_⟩⟩
    exact List.mem_takeWhile_imp mem
  have split : p.rest = text ++ '.' :: (d :: more.takeWhile isDigit ++ more.dropWhile isDigit) := by
    rw [takes.rest, behind, List.cons_append, List.takeWhile_append_dropWhile]
  have further := position_of_lastNumeral run places split noWord first
  rw [takes.position, List.length_cons] at further
  omega

variable {m : Occurrence}

/-- The numeral at the end of an occurrence was noted last, and it is all that could be read of a
decimal. -/
theorem exists_lastNumeral_of_mem (solid : ¬ pattern.Spells true [])
    (closes : pattern.closesWith (lastNumeral index) = true)
    (mem : m ∈ pattern.occurrences true text) :
    ∃ front taken, m.text = front ++ taken ∧ m.captures.head? = some (index, taken) ∧
      numeral.Spells true taken ∧ IsReadOut taken (text.drop m.stop) := by
  obtain ⟨q, r, front, _, _, earlier, _, first, takes, rest, spelled, textEq, noted⟩ :=
    exists_close_of_mem solid closes mem
  obtain ⟨taken, _, _, _, ⟨inner, ofNumeral, rfl⟩, ⟨rfl, none⟩, rfl, rfl⟩ := spelled
  rw [none rfl] at noted
  rw [List.append_nil] at takes textEq
  refine ⟨front, taken, textEq, ?_, ofNumeral.spells, ?_⟩
  · rw [noted]
    rfl
  · rw [← rest]
    exact isReadOut_of_lastNumeral first ofNumeral.spells takes

/-- The numeral before a plus at the end of an occurrence was noted last. -/
theorem exists_raisedNumeral_of_mem (solid : ¬ pattern.Spells true [])
    (closes : pattern.closesWith (raisedNumeral index) = true)
    (mem : m ∈ pattern.occurrences true text) :
    ∃ front taken, m.text = front ++ (taken ++ ['+']) ∧ m.captures.head? = some (index, taken) ∧
      numeral.Spells true taken := by
  obtain ⟨q, r, front, _, _, earlier, _, _, _, _, spelled, textEq, noted⟩ :=
    exists_close_of_mem solid closes mem
  obtain ⟨taken, _, _, _, ⟨inner, ofNumeral, rfl⟩, ⟨⟨plus, rfl, same⟩, none⟩, rfl, rfl⟩ := spelled
  have plusEq : plus = '+' := Text.eq_of_sameLetter (by decide) same
  rw [none rfl] at noted
  refine ⟨front, taken, by rw [textEq, plusEq], ?_, ofNumeral.spells⟩
  rw [noted]
  rfl

end LastNumeral

theorem le_groupCount_of_closesWith {body tip : Pattern}
    (closes : pattern.closesWith (.seq (.group index body) tip) = true) :
    index ≤ pattern.groupCount := by
  induction pattern with
  | seq a b _ second =>
      rcases Bool.or_eq_true_iff.mp closes with same | later
      · obtain ⟨rfl, _⟩ := Pattern.seq.inj (eq_of_beq same)
        exact (Nat.le_max_left _ _).trans (Nat.le_max_left _ _)
      · exact (second later).trans (Nat.le_max_right _ _)
  | _ => cases eq_of_beq closes

end Pattern

namespace Extractor

variable {m : Occurrence} {index : Nat} {numeral : List Char} {value : Value}

/-- A single bound is read from the numeral that was noted last. -/
theorem lastRating_eq_rating? (last : m.lastGroup? = some index)
    (met : m.group index = .ok (some numeral)) : lastRating m = .ok (rating? numeral) := by
  rw [lastRating, last]
  show groupRating m index = _
  rw [groupRating, met]
  rfl

/-- What a phrase about ratings says last is read from the numeral that was noted last. -/
theorem exists_bounds {kind : Kind} {extractor : Extractor} (ofKind : ofKind? kind = some extractor)
    (rating : kind.isRating = true) (last : m.lastGroup? = some index)
    (met : m.group index = .ok (some numeral)) (second : kind = .ratingRange → index = 2)
    (extracted : extractor m = .ok value) (something : value ≠ .nothing) :
    ∃ low high, value = .ratings ⟨low, high⟩ ∧ high.or low = rating? numeral := by
  have read := lastRating_eq_rating? last met
  cases kind with
  | ratingMin | ratingFloor =>
      cases ofKind
      obtain ⟨x, read', rfl⟩ := exists_of_map rfl extracted something
      exact ⟨some x, none, rfl, (Except.ok.inj (read.symm.trans read')).symm⟩
  | ratingMax =>
      cases ofKind
      obtain ⟨x, read', rfl⟩ := exists_of_map rfl extracted something
      exact ⟨none, some x, rfl, (Except.ok.inj (read.symm.trans read')).symm⟩
  | ratingRange =>
      cases ofKind
      obtain ⟨low, high, _, readHigh, said⟩ :=
        exists_of_both (fun other => by cases other <;> exact ⟨rfl, rfl⟩) extracted something
      have valueEq : (if high.lt low then .nothing else .ratings ⟨some low, some high⟩) = value :=
        Except.ok.inj said
      rw [groupRating, ← second rfl, met] at readHigh
      split at valueEq
      · exact absurd valueEq.symm something
      · exact ⟨some low, some high, valueEq.symm, (Except.ok.inj readHigh).symm⟩
  | _ => cases rating

end Extractor

namespace DefaultRules

/-- Whether the phrases of a pattern close with a numeral, if they are about ratings. -/
def closesWithNumeral : Kind × Pattern → Bool
  | (kind, pattern) => !kind.isRating || pattern.closesWith (.lastNumeral 2) ||
      kind != .ratingRange && pattern.closesWith (.raisedNumeral 1)

theorem ratings_close : ∀ entry ∈ records, closesWithNumeral entry = true := by
  simp only [records, all, contentTypes, years, ratings, providers, genres, regions, List.map_cons,
    List.map_nil, List.cons_append, List.nil_append, reading_shape, meaning_shape, naming_shape,
    located_shape, phrase_text, reading_kind, meaning_kind, naming_kind, located_kind, rating]
  delta Catalog.genreWords
  simp only [String.toList_append, String.reduceToList]
  decide +kernel

/-- A phrase about ratings that is found ends with a numeral, or with a numeral and a plus. The
numeral was noted last, and it is all that could be read of a decimal. -/
theorem exists_spelled_of_found {rule : Rule} {chars : List Char} {m : Occurrence}
    (mem : rule ∈ all) (rating : rule.kind.isRating = true) (found : m ∈ rule.shape.find chars) :
    ∃ index front numeral plus, m.text = front ++ (numeral ++ plus) ∧ (plus = [] ∨ plus = ['+']) ∧
      m.lastGroup? = some index ∧ m.group index = .ok (some numeral) ∧
        (rule.kind = .ratingRange → index = 2) ∧ Pattern.numeral.Spells true numeral ∧
          Pattern.IsReadOut numeral (plus ++ chars.drop m.stop) := by
  have solid := Pattern.solid_of_standsAlone (standsAlone_of_mem mem)
  have closes := ratings_close _ (mem_records mem)
  rw [find_eq_occurrences mem] at found
  have count := Pattern.groupCount_of_mem_occurrences found
  have noted {index : Nat} {numeral : List Char} (positive : index ≠ 0)
      (within : index ≤ rule.pattern.groupCount)
      (head : m.captures.head? = some (index, numeral)) :
      m.lastGroup? = some index ∧ m.group index = .ok (some numeral) := by
    obtain ⟨earlier, captures⟩ := List.head?_eq_some_iff.mp head
    rw [Occurrence.lastGroup?, head, Occurrence.group, if_neg positive, count,
      if_neg (Nat.not_lt.mpr within), captures, List.lookup_cons_self]
    exact ⟨rfl, rfl⟩
  simp only [closesWithNumeral, rating, Bool.not_true, Bool.false_or, Bool.or_eq_true,
    Bool.and_eq_true, bne_iff_ne] at closes
  rcases closes with last | ⟨single, raised⟩
  · obtain ⟨front, numeral, text, head, spelled, readOut⟩ :=
      Pattern.exists_lastNumeral_of_mem solid last found
    obtain ⟨lastGroup, group⟩ := noted two_ne_zero (Pattern.le_groupCount_of_closesWith last) head
    exact ⟨2, front, numeral, [], by rw [text, List.append_nil], .inl rfl, lastGroup, group,
      fun _ => rfl, spelled, readOut⟩
  · obtain ⟨front, numeral, text, head, spelled⟩ :=
      Pattern.exists_raisedNumeral_of_mem solid raised found
    obtain ⟨lastGroup, group⟩ := noted one_ne_zero (Pattern.le_groupCount_of_closesWith raised) head
    refine ⟨1, front, numeral, ['+'], text, .inr rfl, lastGroup, group,
      fun range => absurd range single, spelled, ?_⟩
    intro d more behind
    cases behind

theorem exists_numeral_of_found {rule : Rule} {chars : List Char} {m : Occurrence}
    (mem : rule ∈ all) (rating : rule.kind.isRating = true) (found : m ∈ rule.shape.find chars) :
    ∃ index front numeral plus, m.text = front ++ (numeral ++ plus) ∧ (plus = [] ∨ plus = ['+']) ∧
      m.lastGroup? = some index ∧ m.group index = .ok (some numeral) ∧
        (rule.kind = .ratingRange → index = 2) ∧
          Pattern.IsReadOut numeral (plus ++ chars.drop m.stop) := by
  obtain ⟨index, front, numeral, plus, text, raised, last, met, second, _, readOut⟩ :=
    exists_spelled_of_found mem rating found
  exact ⟨index, front, numeral, plus, text, raised, last, met, second, readOut⟩

/-- A rating is never read from the first part of a decimal that could be read as a whole: behind
the numeral that the last bound of a fragment was read from there is no point with a digit behind
it in the text that the rule was tried on, unless the numeral has a point already or the places run
into a word. -/
theorem numerals_readOut {run : Nat} {query : List Char} {f : Fragment}
    (mem : f ∈ (Table.default.read run query).fragments) (rating : f.kind.isRating = true) :
    ∃ k rule m, all[k]? = some rule ∧ m ∈ rule.shape.find (triedOn run k query).chars ∧
      f.offsets = (triedOn run k query).placesBetween m.start m.stop ∧
        ∃ front numeral plus, m.text = front ++ (numeral ++ plus) ∧ (plus = [] ∨ plus = ['+']) ∧
          (∃ low high, f.value = .ratings ⟨low, high⟩ ∧
            high.or low = Extractor.rating? numeral) ∧
            Pattern.IsReadOut numeral (plus ++ (triedOn run k query).chars.drop m.stop) := by
  obtain ⟨k, rule, ruleAt, claimed⟩ := mem_fragments_iff.mp mem
  obtain ⟨m, found, made⟩ := List.mem_filterMap.mp claimed
  obtain ⟨kind, extracted, something, _⟩ := Rule.said_of_claim? made
  have member := List.mem_of_getElem? ruleAt
  have ofRule : rule.kind.isRating = true := kind ▸ rating
  obtain ⟨extractor, ofKind⟩ : ∃ extractor, Extractor.ofKind? rule.kind = some extractor := by
    generalize rule.kind = kind at ofRule
    cases kind <;> first | exact ⟨_, rfl⟩ | cases ofRule
  rw [Rule.extract, (isOfKind rule member).extractor, ofKind] at extracted
  obtain ⟨index, front, numeral, plus, text, raised, last, met, second, readOut⟩ :=
    exists_numeral_of_found member ofRule found
  exact ⟨k, rule, m, ruleAt, found, (Rule.eq_of_claim? made).2.1, front, numeral, plus, text,
    raised, Extractor.exists_bounds ofKind ofRule last met second extracted something, readOut⟩

/-- A decimal at the end of a query is read as a whole. -/
theorem numerals_readOut_half :
    ∃ f ∈ (Table.default.read 0 "rated above 7.5".toList).fragments, f.kind.isRating = true ∧
      ∃ k rule m, all[k]? = some rule ∧
        m ∈ rule.shape.find (triedOn 0 k "rated above 7.5".toList).chars ∧
          f.offsets = (triedOn 0 k "rated above 7.5".toList).placesBetween m.start m.stop ∧
            ∃ front numeral plus, m.text = front ++ (numeral ++ plus) ∧ (plus = [] ∨ plus = ['+']) ∧
              (∃ low high, f.value = .ratings ⟨low, high⟩ ∧
                high.or low = Extractor.rating? numeral) ∧
                Pattern.IsReadOut numeral
                  (plus ++ (triedOn 0 k "rated above 7.5".toList).chars.drop m.stop) := by
  have claimed : (all[6]?.map fun rule => rule.claims 6 0 (triedOn 0 6 "rated above 7.5".toList)) =
      some
        [{ id := .made .ratingMin 6 0 0
           kind := .ratingMin
           value := .ratings ⟨some (.ofDecimal false 75 (-1)), none⟩
           label := "Rating: 7.5+"
           source := "rated above 7.5"
           offsets := List.range 15 }] := by
    decide +kernel
  have here := mem_fragments_of_claims claimed (List.mem_singleton_self _)
  exact ⟨_, here, rfl, numerals_readOut here rfl⟩

/-- Half a point beyond the scale is not read where it runs into a word, and the rating is on the
scale then. -/
theorem numerals_cutShort :
    ¬ ∀ (run : Nat) (query : List Char), ∀ f ∈ (Table.default.read run query).fragments,
      f.kind.isRating = true → ∀ (k : Nat) (rule : Rule), all[k]? = some rule →
        ∀ m ∈ rule.shape.find (triedOn run k query).chars,
          f.offsets = (triedOn run k query).placesBetween m.start m.stop →
            ∀ front numeral plus, m.text = front ++ (numeral ++ plus) → (plus = [] ∨ plus = ['+']) →
              (∃ low high, f.value = .ratings ⟨low, high⟩ ∧
                high.or low = Extractor.rating? numeral) →
                ∀ d more, plus ++ (triedOn run k query).chars.drop m.stop = '.' :: d :: more →
                  isDigit d = false := by
  have claimed : (all[6]?.map fun rule =>
      (rule.claims 6 0 (triedOn 0 6 "rated above 10.5x".toList),
        rule.shape.find (triedOn 0 6 "rated above 10.5x".toList).chars)) =
      some
        ([{ id := .made .ratingMin 6 0 0
            kind := .ratingMin
            value := .ratings ⟨some (.ofDecimal false 10 0), none⟩
            label := "Rating: 10+"
            source := "rated above 10"
            offsets := List.range 14 }],
          [⟨0, 14, "rated above 10".toList, 2, [(2, "10".toList), (1, "above".toList)]⟩]) := by
    decide +kernel
  obtain ⟨rule, ruleAt, both⟩ := Option.map_eq_some_iff.mp claimed
  obtain ⟨claims, finds⟩ := Prod.mk.inj both
  have here := mem_fragments_iff.mpr ⟨6, rule, ruleAt, claims ▸ List.mem_singleton_self _⟩
  intro whole
  have digit := whole 0 _ _ here rfl 6 rule ruleAt _ (finds ▸ List.mem_singleton_self _)
    (by decide +kernel) "rated above ".toList "10".toList [] (by decide) (.inl rfl)
    ⟨_, _, rfl, by decide +kernel⟩ '5' ['x'] (by decide +kernel)
  exact absurd digit (by decide)

end DefaultRules

end FilmQuery
