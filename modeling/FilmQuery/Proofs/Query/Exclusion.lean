/-
# Exclusions come before inclusions

A genre behind a word that excludes is claimed by the rule for exclusions, so the rule for genres
never sees it (`exclusions_win`).  What has to be shown is that the exclusion is still there, and
still at the beginning of a word, when its rule has its turn.  No rule before that claims any of it,
and what such a rule claims begins at the beginning of a word, so no word is moved up to the
exclusion (`IsClearIn.without`).
-/
import FilmQuery.Proofs.Query.Shedding
import FilmQuery.Proofs.Query.Turns
import FilmQuery.Proofs.Rule.Exclusions
import FilmQuery.Proofs.Rule.Meanings
import FilmQuery.Proofs.Rule.Values

namespace FilmQuery

open PlacedText
open Text (isBlank isWord)

namespace PlacedText

variable {text phrase left right : PlacedText} {fragments : List Fragment}

/-- The place of a character is in a span if and only if the character is. -/
theorem Sorted.mem_placesBetween_iff (sorted : text.Sorted) {i start stop : Nat} {x : Nat × Char}
    (here : text[i]? = some x) : x.1 ∈ text.placesBetween start stop ↔ start ≤ i ∧ i < stop := by
  obtain ⟨inRange, rfl⟩ := List.getElem?_eq_some_iff.mp here
  constructor
  · intro mem
    by_contra outside
    rw [not_and_or, Nat.not_le, Nat.not_lt] at outside
    rcases outside with before | behind
    · have inTake : text[i] ∈ text.take start :=
        List.mem_take_iff_getElem.mpr ⟨i, by omega, rfl⟩
      exact not_mem_placesBetween_of_mem_take sorted inTake (Nat.le_refl _) mem
    · have inDrop : text[i] ∈ text.drop stop :=
        List.mem_drop_iff_getElem.mpr ⟨i - stop, by omega, by simp [Nat.add_sub_cancel' behind]⟩
      exact not_mem_placesBetween_of_mem_drop sorted inDrop (Nat.le_refl _) mem
  · rintro ⟨reached, before⟩
    refine List.mem_map_of_mem (List.mem_take_iff_getElem.mpr ⟨i - start, ?_, ?_⟩)
    · rw [List.length_drop]
      omega
    · simp [Nat.add_sub_cancel' reached]

/-- A phrase is part of a text, and no word goes on in front of it. -/
def IsClearIn (phrase text : PlacedText) : Prop :=
  ∃ left right, text = left ++ (phrase ++ right) ∧ left.closes = false

/-- The fragments stand on spans of a text with no word going on in front of them. -/
def BeginWords (text : PlacedText) (fragments : List Fragment) : Prop :=
  ∀ f ∈ fragments, ∃ start stop, f.offsets = text.placesBetween start stop ∧
    closes (text.take start) = false

/-- Behind a character that stays nothing is taken out if the character is part of a word. -/
theorem isWord_eq_false_of_taken (sorted : text.Sorted) (begin : text.BeginWords fragments)
    {x y : Nat × Char} (split : text = left ++ x :: y :: right)
    (stays : ∀ f ∈ fragments, x.1 ∉ f.offsets) {f : Fragment} (mem : f ∈ fragments)
    (taken : y.1 ∈ f.offsets) : isWord x.2 = false := by
  have atX : text[left.length]? = some x := by
    rw [split, List.getElem?_append_right (Nat.le_refl _), Nat.sub_self]
    rfl
  have atY : text[left.length + 1]? = some y := by
    rw [split, List.getElem?_append_right (Nat.le_add_right _ 1), Nat.add_sub_cancel_left]
    rfl
  obtain ⟨start, stop, offsets, begins⟩ := begin f mem
  have hasNoX := stays f mem
  rw [offsets, sorted.mem_placesBetween_iff atX] at hasNoX
  rw [offsets, sorted.mem_placesBetween_iff atY] at taken
  obtain rfl : start = left.length + 1 := by omega
  rwa [closes, List.getLast?_take, if_neg (Nat.succ_ne_zero _), Nat.add_sub_cancel, atX,
    Option.some_or, Option.any_some] at begins

/-- If fragments that begin words are taken out, no word is moved to the end. -/
theorem closes_without (sorted : text.Sorted) (begin : text.BeginWords fragments)
    (split : text = left ++ right) (quiet : left.closes = false) :
    (left.without fragments).closes = false := by
  by_contra closes
  obtain ⟨x, last, word⟩ := (Option.any_eq_true _ _).mp ((Bool.not_eq_false _).mp closes)
  obtain ⟨others, kept⟩ := List.getLast?_eq_some_iff.mp last
  obtain ⟨first, rest, leftEq, _, onlyX⟩ := List.filter_eq_append_iff.mp kept
  obtain ⟨gone, behind, restEq, _, stays, goneBehind⟩ := List.filter_eq_cons_iff.mp onlyX
  have before : left = (first ++ gone) ++ x :: behind := by simp [leftEq, restEq]
  cases behind with
  | nil =>
      rw [before, closes_append (List.cons_ne_nil _ _), PlacedText.closes, List.getLast?_singleton,
        Option.any_some, word] at quiet
      cases quiet
  | cons y behind =>
      have taken := List.filter_eq_nil_iff.mp goneBehind y List.mem_cons_self
      simp only [Bool.not_eq_true', Bool.not_eq_false, List.any_eq_true] at taken
      obtain ⟨f, mem, has⟩ := taken
      rw [before, List.append_assoc] at split
      have quietX := isWord_eq_false_of_taken sorted begin split (by simpa using stays) mem
        (List.contains_iff_mem.mp has)
      rw [word] at quietX
      cases quietX

/-- If fragments that begin words are taken out, a word behind what stays is not among them. -/
theorem opens_eq_false_of_without (sorted : text.Sorted) (begin : text.BeginWords fragments)
    (split : text = left ++ right) (closes : left.closes = true)
    (stays : ∀ x ∈ left.getLast?, ∀ f ∈ fragments, x.1 ∉ f.offsets)
    (quiet : (right.without fragments).opens = false) : right.opens = false := by
  cases right with
  | nil => rfl
  | cons y right =>
      obtain ⟨x, last, word⟩ := (Option.any_eq_true _ _).mp closes
      obtain ⟨others, rfl⟩ := List.getLast?_eq_some_iff.mp last
      rw [List.append_assoc] at split
      have kept : ∀ f ∈ fragments, y.1 ∉ f.offsets := by
        intro f mem taken
        have quietX := isWord_eq_false_of_taken sorted begin split (stays x last) mem taken
        rw [word] at quietX
        cases quietX
      have keeps : without (y :: right) fragments = y :: without right fragments := by
        rw [without, List.filter_cons, if_pos (by simpa using kept)]
        rfl
      rwa [keeps] at quiet

/-- What is taken out in front of a phrase and behind it leaves the phrase as it is. -/
theorem without_around (split : text = left ++ (phrase ++ right))
    (apart : ∀ x ∈ phrase, ∀ f ∈ fragments, x.1 ∉ f.offsets) :
    text.without fragments = left.without fragments ++ (phrase ++ right.without fragments) := by
  have stays : List.filter _ phrase = phrase := without_eq_self apart
  rw [split, without, List.filter_append, List.filter_append, stays]
  rfl

/-- If fragments that begin words are taken out around a phrase, it is still there, and still no
word goes on in front of it. -/
theorem IsClearIn.without (sorted : text.Sorted) (begin : text.BeginWords fragments)
    (split : text = left ++ (phrase ++ right)) (quiet : left.closes = false)
    (apart : ∀ x ∈ phrase, ∀ f ∈ fragments, x.1 ∉ f.offsets) :
    phrase.IsClearIn (text.without fragments) :=
  ⟨_, _, without_around split apart, closes_without sorted begin split quiet⟩

/-- A phrase is at one place of a text only. -/
theorem Sorted.append_inj {left' right' : PlacedText} (sorted : Sorted (left ++ (phrase ++ right)))
    (some : phrase ≠ []) (same : left ++ (phrase ++ right) = left' ++ (phrase ++ right')) :
    left = left' ∧ right = right' := by
  obtain ⟨x, others, rfl⟩ := List.exists_cons_of_ne_nil some
  have nodup : (left ++ x :: (others ++ right)).Nodup :=
    List.Nodup.of_map Prod.fst (sorted.imp Nat.ne_of_lt)
  obtain ⟨notBefore, notBehind⟩ : x ∉ left ∧ x ∉ others ++ right := by
    rw [← not_or, ← List.mem_append]
    exact (List.nodup_cons.mp (List.nodup_middle.mp nodup)).1
  obtain ⟨leftEq, _, restEq⟩ := (List.append_cons_inj_of_notMem notBefore notBehind).mp same
  exact ⟨leftEq, List.append_cancel_left restEq⟩

theorem getElem?_of_mem_ofText {query : List Char} {x : Nat × Char} (mem : x ∈ ofText query) :
    (ofText query)[x.1]? = some x := by
  have char := mem_ofText.mp mem
  simp [ofText, char]

/-- What is made of the characters of a query and stands together is a piece of the query. -/
theorem isPiece_of_places_eq {query : List Char} {start : Nat}
    (ofQuery : ∀ x ∈ phrase, x ∈ ofText query)
    (together : phrase.places = List.range' start phrase.places.length) :
    ofText query = (ofText query).take start ++
      (phrase ++ (ofText query).drop (start + phrase.length)) := by
  have piece : ((ofText query).drop start).take phrase.length = phrase := by
    apply List.ext_getElem?
    intro i
    rcases Nat.lt_or_ge i phrase.length with inRange | beyond
    · have place : phrase[i].1 = start + i := by
        have at_i := congrArg (·[i]?) together
        simpa [places, inRange] using at_i
      have here := getElem?_of_mem_ofText (ofQuery _ (List.getElem_mem inRange))
      rw [List.getElem?_take_of_lt inRange, List.getElem?_drop, ← place,
        List.getElem?_eq_getElem inRange]
      exact here
    · rw [List.getElem?_eq_none (by simp only [List.length_take]; omega),
        List.getElem?_eq_none beyond]
  conv_lhs => rw [← List.take_append_drop start (ofText query),
    ← List.take_append_drop phrase.length ((ofText query).drop start), List.drop_drop, piece]

end PlacedText

/-- A rule that reads a value off an occurrence and can label it makes a fragment of it. -/
theorem Rule.exists_claim? {rule : Rule} (index run : Nat) (text : PlacedText) {m : Occurrence}
    {value : Value} {shown : String} (extracted : rule.extract m = .ok value)
    (something : value ≠ .nothing) (labelled : label rule.kind value m = .ok shown)
    (taken : m.start ≠ m.stop) : ∃ f, rule.claim? index run text m = some f := by
  rw [claim?, extracted]
  simp only [labelled]
  rw [if_neg (not_or.mpr ⟨taken, something⟩)]
  exact ⟨_, rfl⟩

/-- A genre is read off an occurrence if the group that was completed last has met a word for it. -/
theorem Extractor.exists_genreId {m : Occurrence} {index : Nat} {text : List Char} {value : Value}
    (last : m.lastGroup? = some index) (met : m.group index = .ok (some text))
    (read : genre m = .ok value) (something : value ≠ .nothing) :
    ∃ id, Catalog.genreId? text = some id := by
  rw [genre, last, Option.getD_some, met] at read
  cases known : Catalog.genreId? text with
  | none =>
      simp only [Except.map, Option.getD_some, known] at read
      exact absurd (Except.ok.inj read).symm something
  | some id => exact ⟨id, rfl⟩

namespace DefaultRules

open Pattern (exclusion genreWord)

variable {run k : Nat} {query : List Char} {rule : Rule}

/-- What a rule claims begins words. -/
theorem beginWords_claims (mem : rule ∈ all) (index run : Nat) (text : PlacedText) :
    text.BeginWords (rule.claims index run text) := by
  intro f claimed
  obtain ⟨m, found, made⟩ := List.mem_filterMap.mp claimed
  rw [find_eq_occurrences mem] at found
  refine ⟨m.start, m.stop, (Rule.eq_of_claim? made).2.1, ?_⟩
  rw [closes_eq_chars, chars, List.map_take]
  exact (Pattern.begins_of_standsAlone (standsAlone_of_mem mem) found).1

theorem pattern_of_listed {kind : Kind} {pattern : Pattern} (ruleAt : all[k]? = some rule)
    (listed : records[k]? = some (kind, pattern)) : rule.kind = kind ∧ rule.pattern = pattern := by
  rw [getElem?_records, ruleAt] at listed
  exact Prod.mk.inj (Option.some.inj listed)

theorem exists_rule (listed : k < records.length) : ∃ rule, all[k]? = some rule := by
  have length : records.length = all.length := by simp [records]
  exact ⟨_, List.getElem?_eq_getElem (length ▸ listed)⟩

/-- An occurrence whose only note is that of a genre was completed with it. -/
theorem group_of_captures {m : Occurrence} {text : List Char} {inner : List (Nat × List Char)}
    (count : m.groupCount = 1) (captures : m.captures = (1, text) :: inner) :
    m.lastGroup? = some 1 ∧ m.group 1 = .ok (some text) := by
  rw [Occurrence.lastGroup?, Occurrence.group, if_neg Nat.one_ne_zero, count,
    if_neg (Nat.lt_irrefl 1), captures, List.lookup_cons_self]
  exact ⟨rfl, rfl⟩

section Excluded

variable {word gap genre : PlacedText}

/-- No rule that keeps off claims a word that excludes or the blanks behind it. -/
theorem not_mem_offsets_of_keepsOff (mem : rule ∈ all) (off : rule.pattern.keepsOff = true)
    {index : Nat} {text left right : PlacedText} (sorted : text.Sorted)
    (split : text = left ++ ((word ++ gap) ++ right))
    (excludes : Part.IsOneOf exclusionWords word.chars) (isGap : Part.IsGap gap.chars)
    {f : Fragment} (claimed : f ∈ rule.claims index run text) {x : Nat × Char}
    (inside : x ∈ word ++ gap) : x.1 ∉ f.offsets := by
  obtain ⟨m, found, made⟩ := List.mem_filterMap.mp claimed
  rw [find_eq_occurrences mem] at found
  have charsEq : text.chars = left.chars ++ (word.chars ++ (gap.chars ++ right.chars)) := by
    simp only [split, chars_append, List.append_assoc]
  have keeps :=
    Pattern.stop_le_or_le_start (standsAlone_of_mem mem) off found charsEq excludes isGap
  rw [length_chars, length_chars, length_chars] at keeps
  obtain ⟨i, inRange, rfl⟩ := List.mem_iff_getElem.mp inside
  have here : text[left.length + i]? = some (word ++ gap)[i] := by
    rw [split, List.getElem?_append_right (Nat.le_add_right _ _), Nat.add_sub_cancel_left,
      List.getElem?_append_left inRange, List.getElem?_eq_getElem inRange]
  rw [List.length_append] at inRange
  rw [(Rule.eq_of_claim? made).2.1, sorted.mem_placesBetween_iff here]
  omega

/-- An exclusion stays as it is until its rule has its turn, if its genre is not claimed before the
rule for genres has its turn. -/
theorem isClearIn_triedOn (excludes : Part.IsOneOf exclusionWords word.chars)
    (isGap : Part.IsGap gap.chars) (unclaimed : ∀ x ∈ genre, x ∈ triedOn run 18 query)
    (clear : (word ++ gap ++ genre).IsClearIn (ofText query)) {j : Nat} (le : j ≤ 17) :
    (word ++ gap ++ genre).IsClearIn (triedOn run j query) := by
  induction j with
  | zero => simpa [triedOn] using clear
  | succ j ih =>
      obtain ⟨left, right, split, quiet⟩ := ih (Nat.le_of_succ_le le)
      obtain ⟨inRange, _⟩ := List.getElem?_eq_some_iff.mp genres_listed.1
      obtain ⟨rule, ruleAt⟩ := exists_rule (k := j) (by omega)
      have mem := List.mem_of_getElem? ruleAt
      have off : rule.pattern.keepsOff = true := by
        have entry := getElem?_records j
        rw [ruleAt, ← List.getElem?_take_of_lt le] at entry
        exact genres_listed.2.2.2 _ (List.mem_of_getElem? entry)
      rw [triedOn_succ ruleAt]
      have sorted := sorted_triedOn run j query
      refine IsClearIn.without sorted (beginWords_claims mem j run _) split quiet ?_
      intro x inPhrase f claimed
      rcases List.mem_append.mp inPhrase with inside | inGenre
      · rw [List.append_assoc] at split
        exact not_mem_offsets_of_keepsOff mem off sorted split excludes isGap claimed inside
      · exact not_mem_offsets_of_mem_triedOn (Nat.lt_succ_of_le (Nat.le_of_succ_le le)) ruleAt
          claimed (unclaimed x inGenre)

/-- Where the rule for exclusions has its turn, it claims an exclusion whose genre is known. -/
theorem exists_claim_of_excluded (ruleAt : all[17]? = some rule)
    {text left right : PlacedText} (sorted : text.Sorted)
    (split : text = left ++ (word ++ gap ++ genre ++ right)) (quiet : left.closes = false)
    (ends : right.opens = false) (excludes : Part.IsOneOf exclusionWords word.chars)
    (isGap : Part.IsGap gap.chars) (spelled : genreWord.Spells true genre.chars) {id : Int}
    (known : Catalog.genreId? genre.chars = some id) :
    ∃ f ∈ rule.claims 17 run text, ∀ x ∈ genre, x.1 ∈ f.offsets := by
  obtain ⟨kind, pattern⟩ := pattern_of_listed ruleAt genres_listed.1
  have mem := List.mem_of_getElem? ruleAt
  rw [closes_eq_chars] at quiet
  rw [opens_eq_chars] at ends
  have charsEq : text.chars =
      left.chars ++ (word.chars ++ (gap.chars ++ (genre.chars ++ right.chars))) := by
    simp only [split, chars_append, List.append_assoc]
  obtain ⟨m, here, start, stop, count, inner, captures⟩ :=
    Pattern.exists_excludedGenre_at quiet excludes isGap spelled ends
  rw [← charsEq] at here
  have found : m ∈ rule.shape.find text.chars := by
    rw [find_eq_occurrences mem, pattern]
    refine Pattern.mem_occurrences_of_free (by rw [charsEq, List.length_append]; omega) here ?_
    intro other foundOther before
    exact Pattern.stop_le_of_excludedGenre foundOther charsEq quiet excludes before
  obtain ⟨last, met⟩ := group_of_captures count captures
  have extracted : rule.extract m = .ok (.number id) := by
    rw [Rule.extract, (isOfKind rule mem).extractor, kind]
    exact Extractor.genre_eq last met known
  have labelled : label rule.kind (.number id) m =
      .ok ("Exclude: " ++ String.ofList genre.chars) := by
    rw [kind, label, shownGroup, met]
    rfl
  have length : m.stop = left.length + (word.length + (gap.length + genre.length)) := by
    simp only [stop, List.length_append, length_chars]
  have taken : m.start ≠ m.stop := by
    have some := List.length_pos_iff.mpr (Pattern.spells_exclusion excludes).2.2
    rw [length_chars] at some start
    omega
  obtain ⟨f, made⟩ := Rule.exists_claim? 17 run text extracted (by simp) labelled taken
  refine ⟨f, List.mem_filterMap.mpr ⟨m, found, made⟩, fun x inGenre => ?_⟩
  obtain ⟨i, inRange, rfl⟩ := List.mem_iff_getElem.mp inGenre
  have atPlace : text[left.length + ((word ++ gap).length + i)]? = some genre[i] := by
    rw [split, List.append_assoc _ genre, List.getElem?_append_right (Nat.le_add_right _ _),
      Nat.add_sub_cancel_left, List.getElem?_append_right (Nat.le_add_right _ _),
      Nat.add_sub_cancel_left, List.getElem?_append_left inRange, List.getElem?_eq_getElem inRange]
  rw [(Rule.eq_of_claim? made).2.1, sorted.mem_placesBetween_iff atPlace, start, length,
    length_chars, List.length_append]
  omega

/-- A genre is found where the rule for genres has its turn, and no word goes on behind it there. -/
theorem exists_genre_of_mem {f : Fragment}
    (mem : f ∈ (Table.default.read run query).fragments) (kind : f.kind = .genre) :
    ∃ (genre left right : PlacedText) (id : Int), triedOn run 18 query = left ++ (genre ++ right) ∧
      right.opens = false ∧ f.offsets = genre.places ∧ genreWord.Spells true genre.chars ∧
        Catalog.genreId? genre.chars = some id := by
  obtain ⟨k, rule, ruleAt, claimed⟩ := mem_fragments_iff.mp mem
  obtain ⟨m, found, made⟩ := List.mem_filterMap.mp claimed
  obtain ⟨ofRule, extracted, something, _⟩ := Rule.said_of_claim? made
  have member := List.mem_of_getElem? ruleAt
  rw [kind] at ofRule
  obtain rfl : k = 18 := by
    have entry := getElem?_records k
    rw [ruleAt] at entry
    refine genres_listed.2.2.1 k (List.getElem?_eq_some_iff.mp entry).1 ?_
    rw [entry, Option.map_some, Option.any_some, ← ofRule]
    rfl
  obtain ⟨_, pattern⟩ := pattern_of_listed ruleAt genres_listed.2.1
  rw [find_eq_occurrences member, pattern] at found
  have lies := (Pattern.genre.occurrences_inOrder true _).liesIn m found
  obtain ⟨spelled, inner, captures⟩ :=
    Pattern.exists_of_spellsWith_genre (Pattern.spellsWith_of_mem_occurrences found)
  have count : m.groupCount = 1 :=
    (Pattern.groupCount_of_mem_occurrences found).trans Pattern.genres_checked.2.2.2
  obtain ⟨last, met⟩ := group_of_captures count captures
  rw [Rule.extract, (isOfKind rule member).extractor, ← ofRule] at extracted
  obtain ⟨id, known⟩ := Extractor.exists_genreId last met extracted something
  let text := triedOn run 18 query
  have charsEq : chars ((text.drop m.start).take (m.stop - m.start)) = m.text := by
    rw [lies.text_eq, chars, chars, List.map_take, List.map_drop]
  refine ⟨_, _, _, id, (text.take_append_between_append_drop lies.start_le_stop).symm, ?_,
    (Rule.eq_of_claim? made).2.1, charsEq ▸ spelled, charsEq ▸ known⟩
  rw [opens_eq_chars, chars, List.map_drop]
  exact Pattern.isWord_behind_eq_false Pattern.genres_checked.2.2.1 found

/-- Before a genre that a fragment was made of there was no exclusion. -/
theorem not_isClearIn_of_left {left right : PlacedText}
    (excludes : Part.IsOneOf exclusionWords word.chars) (isGap : Part.IsGap gap.chars)
    (split : triedOn run 18 query = left ++ (genre ++ right)) (ends : right.opens = false)
    (spelled : genreWord.Spells true genre.chars) {id : Int}
    (known : Catalog.genreId? genre.chars = some id) :
    ¬ (word ++ gap ++ genre).IsClearIn (ofText query) := by
  intro clear
  have unclaimed : ∀ x ∈ genre, x ∈ triedOn run 18 query := by
    intro x inGenre
    rw [split]
    exact List.mem_append_right _ (List.mem_append_left _ inGenre)
  have closes : genre.closes = true := by
    rw [closes_eq_chars]
    exact Pattern.getLast?_isWord_of_closesWord Pattern.genreWord_checked.2.2.2.1 spelled
  have some := ne_nil_of_closes closes
  obtain ⟨rule, ruleAt⟩ := exists_rule (List.getElem?_eq_some_iff.mp genres_listed.1).1
  have stays : ∀ x ∈ genre, ∀ f ∈ rule.claims 17 run (triedOn run 17 query), x.1 ∉ f.offsets :=
    fun x inGenre f claimed => not_mem_offsets_of_mem_triedOn (Nat.lt_succ_self 17) ruleAt claimed
      (unclaimed x inGenre)
  have sorted := sorted_triedOn run 17 query
  obtain ⟨front, behind, splitBefore, quiet⟩ :=
    isClearIn_triedOn excludes isGap unclaimed clear (Nat.le_refl 17)
  -- The word that could go on behind the genre would not be claimed either.
  have endsBefore : behind.opens = false := by
    have begin := beginWords_claims (List.mem_of_getElem? ruleAt) 17 run (triedOn run 17 query)
    have parts : triedOn run 17 query = (front ++ (word ++ gap)) ++ (genre ++ behind) := by
      rw [splitBefore]
      simp only [List.append_assoc]
    have after : left ++ (genre ++ right) = _ :=
      split.symm.trans ((triedOn_succ ruleAt).trans (without_around parts stays))
    have sortedAfter : Sorted (left ++ (genre ++ right)) := split ▸ sorted_triedOn run 18 query
    rw [(sortedAfter.append_inj some after).2] at ends
    rw [← List.append_assoc] at parts
    refine opens_eq_false_of_without sorted begin parts ?_ ?_ ends
    · rwa [closes_append some]
    · rw [List.getLast?_append_of_ne_nil _ some]
      exact fun x last => stays x (List.mem_of_getLast? last)
  obtain ⟨f, claimed, takes⟩ : ∃ f ∈ rule.claims 17 run (triedOn run 17 query),
      ∀ x ∈ genre, x.1 ∈ f.offsets :=
    exists_claim_of_excluded ruleAt sorted (by rw [splitBefore, List.append_assoc]) quiet endsBefore
      excludes isGap spelled known
  obtain ⟨x, inGenre⟩ := List.exists_mem_of_ne_nil _ some
  exact stays x inGenre f claimed (takes x inGenre)

end Excluded

/-- Exclusions win over inclusions: in front of a genre that stands together in the query there is
no word of its own that excludes, with blanks behind it. -/
theorem exclusions_win {f : Fragment} (mem : f ∈ (Table.default.read run query).fragments)
    (kind : f.kind = .genre) {start : Nat}
    (together : f.offsets = List.range' start f.offsets.length) :
    ¬ ∃ before word gap, query.take start = before ++ (word ++ gap) ∧
      before.getLast?.any isWord = false ∧ Part.IsOneOf exclusionWords word ∧ Part.IsGap gap := by
  rintro ⟨before, word, gap, taken, quiet, excludes, isGap⟩
  obtain ⟨genre, left, right, id, split, ends, offsets, spelled, known⟩ :=
    exists_genre_of_mem mem kind
  have ofQuery : ∀ x ∈ genre, x ∈ ofText query := by
    intro x inGenre
    apply (without_sublist _ _).subset
    rw [← triedOn, split]
    exact List.mem_append_right _ (List.mem_append_left _ inGenre)
  have parts := isPiece_of_places_eq ofQuery (offsets ▸ together)
  have charsEq : chars ((ofText query).take start) = before ++ (word ++ gap) := by
    rw [chars, List.map_take, ← taken]
    exact congrArg (List.take start) (chars_ofText query)
  obtain ⟨before, _, frontEq, rfl, rest⟩ := List.map_eq_append_iff.mp charsEq
  obtain ⟨word, gap, rfl, rfl, rfl⟩ := List.map_eq_append_iff.mp rest
  refine not_isClearIn_of_left excludes isGap split ends spelled known
    ⟨before, (ofText query).drop (start + genre.length), ?_, ?_⟩
  · conv_lhs => rw [parts, frontEq]
    simp only [List.append_assoc]
  · rwa [closes_eq_chars]

/-- The last two letters of a longer word exclude nothing. -/
theorem exclusions_win_piano :
    ∃ f ∈ (Table.default.read 0 "piano horror".toList).fragments, f.kind = .genre ∧
      f.offsets = List.range' 6 f.offsets.length ∧
        ¬ ∃ before word gap, "piano horror".toList.take 6 = before ++ (word ++ gap) ∧
          before.getLast?.any isWord = false ∧ Part.IsOneOf exclusionWords word ∧
            Part.IsGap gap := by
  have claimed : (all[18]?.map fun rule => rule.claims 18 0 (triedOn 0 18 "piano horror".toList)) =
      some
        [{ id := .made .genre 18 0 6
           kind := .genre
           value := .number 27
           label := "Genre: horror"
           source := "horror"
           offsets := [6, 7, 8, 9, 10, 11] }] := by
    decide +kernel
  have here := mem_fragments_of_claims claimed (List.mem_singleton_self _)
  exact ⟨_, here, rfl, rfl, exclusions_win here rfl rfl⟩

end DefaultRules

end FilmQuery
