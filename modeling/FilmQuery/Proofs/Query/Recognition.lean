/-
# Every phrase of the grammar is understood

The grammar lists the shapes of the phrases that can be asked for, each with its kind and its value
(`IsPhrase`).  A query that is such a phrase has one fragment, which covers the query and has that
kind and that value (`isReadAs_of_isPhrase`).  The rule of the phrase finds it as a whole, and no
earlier rule finds anything in it.  One shape has to be narrowed for that: a range of ratings with
four digits behind its hyphen could be one of years.
-/
import FilmQuery.Proofs.Query.Source
import FilmQuery.Proofs.Rule.Meanings

namespace FilmQuery

open DefaultRules (RegionName genreNames providerNames regionNames)
open Number (Decimal)
open Number.Numeral (IsDigits)
open PlacedText
open Text (isBlank isDigit uncased)

/-- Texts are written for parts one by one. -/
abbrev Writes (parts : List Part) (texts : List (List Char)) : Prop :=
  List.Forall₂ Part.Writes parts texts

/-- The phrases that are understood, each with its kind and its value. -/
inductive IsPhrase : List Char → Kind → Value → Prop
  | movie {word : List Char} (typed : Writes [.word ["movie", "movies", "film", "films"]] [word]) :
    IsPhrase [word].flatten .contentType (.text "movie")
  | tv {word : List Char} (typed : Writes [.word ["series", "television", "shows"]] [word]) :
    IsPhrase [word].flatten .contentType (.text "tv")
  | tvShow {tv gap word : List Char}
    (typed : Writes [.word ["tv"], .gap, .word ["show", "shows", "series"]] [tv, gap, word]) :
    IsPhrase [tv, gap, word].flatten .contentType (.text "tv")
  | yearFrom {word gap year : List Char}
    (typed : Writes [.word ["from", "since", "after"], .gap, .year] [word, gap, year]) :
    IsPhrase [word, gap, year].flatten .yearFrom (.years ⟨some (.ofList year), none⟩)
  | yearTo {word gap year : List Char}
    (typed : Writes [.word ["before", "until"], .gap, .year] [word, gap, year]) :
    IsPhrase [word, gap, year].flatten .yearTo (.years ⟨none, some (.ofList year)⟩)
  | yearExact {word gap year : List Char}
    (typed : Writes [.word ["in"], .gap, .year] [word, gap, year]) :
    IsPhrase [word, gap, year].flatten .yearExact
      (.years ⟨some (.ofList year), some (.ofList year)⟩)
  | yearRange {start hyphen stop : List Char}
    (typed : Writes [.year, .word ["-"], .year] [start, hyphen, stop])
    (order : String.ofList start ≤ String.ofList stop) :
    IsPhrase [start, hyphen, stop].flatten .yearRange
      (.years ⟨some (.ofList start), some (.ofList stop)⟩)
  | ratingMin {word gap bound space low : List Char} {d : Decimal}
    (typed : Writes
      [.word ["rate", "rated"], .gap, .word ["above", "over", "more than", ">"], .space, .numeral]
      [word, gap, bound, space, low])
    (rating : IsRating low d) :
    IsPhrase [word, gap, bound, space, low].flatten .ratingMin
      (.ratings ⟨some d.toBinary64, none⟩)
  | ratingMax {word gap bound space high : List Char} {d : Decimal}
    (typed : Writes
      [.word ["rate", "rated"], .gap, .word ["below", "under", "less than", "<"], .space, .numeral]
      [word, gap, bound, space, high])
    (rating : IsRating high d) :
    IsPhrase [word, gap, bound, space, high].flatten .ratingMax
      (.ratings ⟨none, some d.toBinary64⟩)
  /-- The number behind the hyphen could be a year if it had four digits. -/
  | ratingRange {word gap between low before link behind high : List Char} {d d' : Decimal}
    (typed : Writes
      [.word ["rate", "rated"], .gap, .lead ["between"], .numeral, .space,
        .word ["-", "to", "and"], .space, .numeral]
      [word, gap, between, low, before, link, behind, high])
    (rating : IsRating low d) (rating' : IsRating high d')
    (order : d.toRatio.value ≤ d'.toRatio.value)
    (short : (high.takeWhile isDigit).length < 4) :
    IsPhrase [word, gap, between, low, before, link, behind, high].flatten .ratingRange
      (.ratings ⟨some d.toBinary64, some d'.toBinary64⟩)
  | ratingFloor {word gap of bound gap' low : List Char} {d : Decimal}
    (typed : Writes
      [.word ["rated", "rating"], .gap, .lead ["of"], .word ["at least", "minimum"], .gap, .numeral]
      [word, gap, of, bound, gap', low])
    (rating : IsRating low d) :
    IsPhrase [word, gap, of, bound, gap', low].flatten .ratingFloor
      (.ratings ⟨some d.toBinary64, none⟩)
  | ratingMinimumOf {word gap of bound gap' of' gap'' low : List Char} {d : Decimal}
    (typed : Writes
      [.word ["rated", "rating"], .gap, .lead ["of"], .word ["minimum"], .gap, .word ["of"], .gap,
        .numeral]
      [word, gap, of, bound, gap', of', gap'', low])
    (rating : IsRating low d) :
    IsPhrase [word, gap, of, bound, gap', of', gap'', low].flatten .ratingFloor
      (.ratings ⟨some d.toBinary64, none⟩)
  | ratingPlus {word space low plus : List Char} {d : Decimal}
    (typed : Writes [.word ["rate", "rated"], .space, .numeral, .word ["+"]]
      [word, space, low, plus])
    (rating : IsRating low d) :
    IsPhrase [word, space, low, plus].flatten .ratingMin (.ratings ⟨some d.toBinary64, none⟩)
  | provider {provider : Catalog.Provider} {name : List Part} {on gap : List Char}
    {texts : List (List Char)} (named : (provider, name) ∈ providerNames)
    (typed : Writes (.word ["on"] :: .gap :: name) (on :: gap :: texts)) :
    IsPhrase (on :: gap :: texts).flatten .provider (.numbers [provider.id])
  | genre {name : List Part} {id : Int} {texts : List (List Char)} (named : (name, id) ∈ genreNames)
    (typed : Writes name texts) : IsPhrase texts.flatten .genre (.number id)
  | genreExclude {name : List Part} {id : Int} {word gap : List Char} {texts : List (List Char)}
    (named : (name, id) ∈ genreNames)
    (typed : Writes (.word ["no", "without", "not", "except"] :: .gap :: name)
      (word :: gap :: texts)) :
    IsPhrase (word :: gap :: texts).flatten .genreExclude (.number id)
  | region {name : RegionName} {word gap article : List Char} {texts : List (List Char)}
    (named : name ∈ regionNames)
    (typed : Writes (.word ["in"] :: .gap :: .lead name.articles :: name.parts)
      (word :: gap :: article :: texts)) :
    IsPhrase (word :: gap :: article :: texts).flatten .country (.text name.code)

/-- A query is read as one fragment of a kind with a value, and the fragment covers the query. -/
def IsReadAs (query : List Char) (kind : Kind) (value : Value) : Prop :=
  ∀ run, ∃ f, (Table.default.read run query).fragments = [f] ∧ f.kind = kind ∧ f.value = value ∧
    f.source = String.ofList query ∧ f.offsets = List.range query.length

namespace DefaultRules

variable {k : Nat} {rule : Rule} {text : List Char} {m : Occurrence}

/-- In a text that a rule finds as a whole no rule before it makes anything, unless it takes the
text for years. -/
theorem claims_before_eq_nil {j : Nat} {earlier : Rule} (lt : j < k)
    (first : all[j]? = some earlier) (ruleAt : all[k]? = some rule) (whole : m.text = text)
    (found : m ∈ rule.shape.find text)
    (free : rule.kind = .ratingRange → Pattern.yearPair.occurrences true text = []) (run : Nat) :
    earlier.claims j run (ofText text) = [] := by
  have nothing : earlier.shape.find text = [] := by
    have none := find_eq_nil_or lt first ruleAt found
    rw [whole] at none
    rcases none with none | ⟨years, ratings⟩
    · exact none
    · have regular := isRegular_of_mem (List.mem_of_getElem? first)
      simp only [isRegular, years, Bool.and_eq_true, beq_iff_eq] at regular
      rw [find_eq_occurrences (List.mem_of_getElem? first), regular.2]
      exact free ratings
  rw [Rule.claims, chars_ofText, nothing, List.filterMap_nil]

/-- A rule that finds a text as a whole and reads a value off it makes the one fragment of the
text. -/
theorem fragments_of_find (ruleAt : all[k]? = some rule) (start : m.start = 0)
    (stop : m.stop = text.length) (whole : m.text = text) (found : rule.shape.find text = [m])
    {value : Value} (extracted : rule.extract m = .ok value) (something : value ≠ .nothing)
    (asked : ∃ met, m.group 1 = .ok met)
    (free : rule.kind = .ratingRange → Pattern.yearPair.occurrences true text = []) :
    IsReadAs text rule.kind value := by
  intro run
  have member := List.mem_of_getElem? ruleAt
  have mem : m ∈ rule.shape.find text := found ▸ List.mem_singleton_self m
  obtain ⟨shown, labelled⟩ := exists_label (allows_of_extract member mem extracted something) asked
  have nonempty : text ≠ [] := by
    rintro rfl
    rw [find_eq_occurrences member] at mem
    have spelled := (Pattern.spells_of_mem_occurrences mem).1
    rw [whole] at spelled
    exact Pattern.solid_of_standsAlone (standsAlone_of_mem member) spelled
  have taken : ¬ (m.start = m.stop ∨ value = .nothing) := by
    rintro (empty | nothing)
    · rw [start, stop] at empty
      exact nonempty (List.length_eq_zero_iff.mp empty.symm)
    · exact something nothing
  have offsets : (ofText text).placesBetween m.start m.stop = List.range text.length := by
    rw [start, stop, placesBetween_ofText]
  obtain ⟨f, made⟩ : ∃ f, rule.claim? k run (ofText text) m = some f := by
    simp only [Rule.claim?, extracted, labelled, if_neg taken]
    exact ⟨_, rfl⟩
  obtain ⟨_, placed, source, _⟩ := Rule.eq_of_claim? made
  obtain ⟨kind, said, _, _⟩ := Rule.said_of_claim? made
  have alone : rule.claims k run (ofText text) = [f] := by
    rw [Rule.claims, chars_ofText, found, List.filterMap_cons, made, List.filterMap_nil]
  have nothingLeft : (ofText text).without [f] = [] := by
    apply List.filter_eq_nil_iff.mpr
    intro x mem
    have place : x.1 ∈ (ofText text).places := List.mem_map_of_mem mem
    rw [places_ofText, ← offsets, ← placed] at place
    simpa using place
  have later : (readParts run (k + 1) (all.drop (k + 1)) []).flatten = [] :=
    readParts_blank (fun rule mem => List.mem_of_mem_drop mem) run (k + 1) rfl
  have before : ∀ j < k, ∀ earlier, all[j]? = some earlier →
      earlier.claims (0 + j) run (ofText text) = [] := by
    intro j lt earlier earlierAt
    rw [Nat.zero_add]
    exact claims_before_eq_nil lt earlierAt ruleAt whole mem free run
  refine ⟨f, ?_, kind, Except.ok.inj (said.symm.trans extracted), whole ▸ source,
    placed.trans offsets⟩
  rw [read_fragments, readParts_skip run 0 ruleAt before, Nat.zero_add, alone, nothingLeft, later,
    List.append_nil]

/-- A rule hears texts one behind the other as one phrase, in which its groups have met the parts
that are noted. -/
structure Hears (k : Nat) (rule : Rule) (notes : List Note) (texts : List (List Char)) : Prop where
  ruleAt : all[k]? = some rule
  found : rule.shape.find texts.flatten = [spoken rule notes texts]
  numbered : ∀ note ∈ notes, 0 < note.1 ∧ note.1 ≤ rule.pattern.groupCount

variable {notes : List Note} {texts : List (List Char)}

section Forms

variable {parts : List Part}

/-- A rule hears what is written in one of its forms. -/
theorem hears_of_form (ruleAt : all[k]? = some rule) (form : ⟨k, parts, notes⟩ ∈ forms)
    (typed : Writes parts texts) : Hears k rule notes texts :=
  have ⟨found, numbered⟩ := find_of_form ruleAt form typed
  ⟨ruleAt, found, numbered⟩

theorem hears_of_plain (number : Nat) (listed : plainForms[number]? = some ⟨k, parts, notes⟩)
    (ruleAt : all[k]? = some rule) (typed : Writes parts texts) : Hears k rule notes texts :=
  hears_of_form ruleAt (mem_forms_of_plain listed) typed

end Forms

namespace Hears

theorem group (heard : Hears k rule notes texts) (index : Nat) {text : List Char}
    (met : (notes.map (Note.met texts)).lookup index = some text) :
    (spoken rule notes texts).group index = .ok (some text) :=
  group_spoken heard.numbered met

/-- What is heard as one phrase is read as one fragment, if a value can be read off it. -/
theorem isReadAs {note : Note} (heard : Hears k rule (note :: notes) texts) {value : Value}
    (extracted : rule.extract (spoken rule (note :: notes) texts) = .ok value)
    (something : value ≠ .nothing)
    (free : rule.kind = .ratingRange → Pattern.yearPair.occurrences true texts.flatten = []) :
    IsReadAs texts.flatten rule.kind value := by
  have asked : ∃ met, (spoken rule (note :: notes) texts).group 1 = .ok met := by
    obtain ⟨positive, within⟩ := heard.numbered note List.mem_cons_self
    have present : ¬ (spoken rule (note :: notes) texts).groupCount < 1 :=
      Nat.not_lt.mpr (Nat.le_trans positive within)
    rw [Occurrence.group, if_neg Nat.one_ne_zero, if_neg present]
    exact ⟨_, rfl⟩
  exact fragments_of_find heard.ruleAt rfl rfl rfl heard.found extracted something asked free

/-- What is heard with a lowest rating, which the group completed last has met, is read so. -/
theorem isReadAs_lowest {text : String} {kind : Kind} {note : Note}
    (heard : Hears k (reading text kind .ratingMin) (note :: notes) texts) {low : List Char}
    (met : (Note.met texts note).2 = low) {d : Decimal} (rating : IsRating low d)
    (noRange : kind ≠ .ratingRange) :
    IsReadAs texts.flatten kind (.ratings ⟨some d.toBinary64, none⟩) := by
  have first := heard.group note.1 (List.lookup_cons_self.trans (congrArg some met))
  exact heard.isReadAs (Extractor.ratingMin_eq rfl first rating) nofun (absurd · noRange)

end Hears

end DefaultRules

open DefaultRules (all hears_of_form hears_of_plain meaning reading)

/-- The words that a part can be written with. -/
def Part.words : Part → List String
  | .word words | .lead words => words
  | _ => []

/-- A part whose words have no hyphen is written without one. -/
theorem Part.hyphen_notMem {part : Part} (plainly : ∀ word ∈ part.words, '-' ∉ word.toList)
    {text : List Char} (writes : part.Writes text) : '-' ∉ text := by
  have noBlank : isBlank '-' = false := by decide
  have noDigit : isDigit '-' = false := by decide
  have wordless {words : List String} (none : ∀ word ∈ words, '-' ∉ word.toList) {text : List Char}
      (isOneOf : IsOneOf words text) : '-' ∉ text := by
    obtain ⟨word, mem, same⟩ := isOneOf
    intro inText
    have inWord : '-' ∈ uncased text := List.mem_map.mpr ⟨'-', inText, rfl⟩
    exact none word mem (same ▸ inWord)
  have blankless {text : List Char} (blank : ∀ c ∈ text, isBlank c = true) : '-' ∉ text :=
    fun mem => Bool.false_ne_true (noBlank.symm.trans (blank _ mem))
  have digitless {text : List Char} (digits : ∀ c ∈ text, isDigit c = true) : '-' ∉ text :=
    fun mem => Bool.false_ne_true (noDigit.symm.trans (digits _ mem))
  cases part with
  | word words => exact wordless plainly writes
  | lead words =>
      rcases writes with rfl | ⟨front, gap, rfl, isOneOf, isGap⟩
      · exact List.not_mem_nil
      · rw [List.mem_append, not_or]
        exact ⟨wordless plainly isOneOf, blankless isGap.blank⟩
  | gap => exact blankless writes.blank
  | space => exact blankless writes
  | year => exact digitless writes.2
  | numeral =>
      obtain ⟨d, typed⟩ := writes
      cases typed with
      | whole run => exact digitless run.digit
      | point run more => simp [digitless run.digit, digitless more.digit]

/-- In a range of ratings whose second number is short, no pair of years can be seen. -/
theorem yearPair_eq_nil {word gap between low before link behind high : List Char}
    (typed : Writes
      [.word ["rate", "rated"], .gap, .lead ["between"], .numeral, .space,
        .word ["-", "to", "and"], .space, .numeral]
      [word, gap, between, low, before, link, behind, high])
    (short : (high.takeWhile isDigit).length < 4) :
    Pattern.yearPair.occurrences true
      [word, gap, between, low, before, link, behind, high].flatten = [] := by
  rw [List.eq_nil_iff_forall_not_mem]
  intro m found
  simp only [List.forall₂_cons] at typed
  obtain ⟨isWord, isGap, isBetween, isLow, isBefore, ⟨middle, listed, linkEq⟩, isBehind, isHigh,
    _⟩ := typed
  have front : '-' ∉ [word, gap, between, low, before].flatten := by
    simp [Part.hyphen_notMem (by decide) isWord, Part.hyphen_notMem (by decide) isGap,
      Part.hyphen_notMem (by decide) isBetween, Part.hyphen_notMem (by decide) isLow,
      Part.hyphen_notMem (by decide) isBefore]
  have rear : '-' ∉ behind ++ high := by
    simp [Part.hyphen_notMem (by decide) isBehind, Part.hyphen_notMem (by decide) isHigh]
  have lies := (Pattern.yearPair.occurrences_inOrder true _).liesIn m found
  obtain ⟨first, hyphen, second, pair, _, four, digits, hyphenFace⟩ :=
    Pattern.exists_of_spells_yearPair (Pattern.spells_of_mem_occurrences found).1
  obtain rfl := Pattern.eq_of_face_hyphen hyphenFace
  generalize textEq : [word, gap, between, low, before, link, behind, high].flatten = text at *
  have cut : [word, gap, between, low, before].flatten ++ (link ++ (behind ++ high)) =
      (text.take m.start ++ first) ++ '-' :: (second ++ text.drop m.stop) := by
    rw [List.append_assoc, ← List.cons_append, ← List.append_assoc first, ← pair, ← lies.drop_start,
      List.take_append_drop, ← textEq]
    simp
  -- The hyphen of the pair is the one between the numbers.
  have linked : link = ['-'] := by
    have here : '-' ∈ link := by
      have mem : '-' ∈ [word, gap, between, low, before].flatten ++ (link ++ (behind ++ high)) := by
        rw [cut]
        exact List.mem_append_right _ List.mem_cons_self
      have inRear := (List.mem_append.mp mem).resolve_left front
      exact (List.mem_append.mp inRear).resolve_right rear
    have inWord : '-' ∈ middle.toList := linkEq ▸ List.mem_map.mpr ⟨'-', here, rfl⟩
    have single : middle.toList.length = 1 := by
      have singles : ∀ word ∈ ["-", "to", "and"], '-' ∈ word.toList → word.toList.length = 1 := by
        decide
      exact singles middle listed inWord
    rw [← linkEq, Text.length_uncased] at single
    obtain ⟨c, rfl⟩ := List.length_eq_one_iff.mp single
    rw [List.mem_singleton.mp here]
  rw [linked, List.singleton_append, List.append_cons_inj_of_notMem front rear] at cut
  obtain ⟨_, _, behindEq⟩ := cut
  have secondDigits : ∀ c ∈ second, isDigit c = true :=
    fun c mem => digits c (List.mem_append_right _ mem)
  cases behind with
  | nil =>
      rw [List.nil_append] at behindEq
      rw [behindEq, List.takeWhile_append_of_pos secondDigits, List.length_append] at short
      omega
  | cons c others =>
      obtain ⟨d, more, rfl⟩ : ∃ d more, second = d :: more :=
        List.exists_cons_of_length_eq_add_one four
      obtain ⟨same, _⟩ := List.cons_eq_cons.mp behindEq
      have word := Text.isWord_of_isDigit (secondDigits d List.mem_cons_self)
      rw [← same, Text.isWord_eq_false_of_isBlank (isBehind c List.mem_cons_self)] at word
      cases word

/-- The name of a genre is read as the genre. -/
theorem isReadAs_of_genreName {name : List Part} {id : Int} {texts : List (List Char)}
    (named : (name, id) ∈ genreNames) (typed : Writes name texts) :
    IsReadAs texts.flatten .genre (.number id) := by
  obtain ⟨text, ruleAt⟩ : ∃ text, all[18]? = some (reading text .genre .genre) := ⟨_, rfl⟩
  have heard := hears_of_form ruleAt (DefaultRules.mem_forms_of_genre named) typed
  have length : name.length = texts.length := typed.length_eq
  have met := heard.group 1 (show _ = some texts.flatten by simp [Note.met, length])
  have id := DefaultRules.genreId?_of_named named typed
  exact heard.isReadAs (Extractor.genre_eq rfl met id) (by rintro ⟨⟩) (by rintro ⟨⟩)

/-- Every phrase of the grammar is understood: a query that is such a phrase has one fragment, which
covers the query and has the kind and the value of the phrase. -/
theorem isReadAs_of_isPhrase {text : List Char} {kind : Kind} {value : Value}
    (phrase : IsPhrase text kind value) : IsReadAs text kind value := by
  cases phrase with
  | movie typed =>
      obtain ⟨text, ruleAt⟩ : ∃ text, all[0]? = some (meaning text .contentType (.text "movie")) :=
        ⟨_, rfl⟩
      have heard := hears_of_plain 0 rfl ruleAt typed
      exact heard.isReadAs rfl (by rintro ⟨⟩) (by rintro ⟨⟩)
  | tv typed =>
      obtain ⟨text, ruleAt⟩ : ∃ text, all[1]? = some (meaning text .contentType (.text "tv")) :=
        ⟨_, rfl⟩
      have heard := hears_of_plain 2 rfl ruleAt typed
      exact heard.isReadAs rfl (by rintro ⟨⟩) (by rintro ⟨⟩)
  | tvShow typed =>
      obtain ⟨text, ruleAt⟩ : ∃ text, all[1]? = some (meaning text .contentType (.text "tv")) :=
        ⟨_, rfl⟩
      have heard := hears_of_plain 1 rfl ruleAt typed
      exact heard.isReadAs rfl (by rintro ⟨⟩) (by rintro ⟨⟩)
  | @yearFrom word gap year typed =>
      obtain ⟨text, ruleAt⟩ : ∃ text, all[2]? = some (reading text .yearFrom .yearFrom) := ⟨_, rfl⟩
      have heard := hears_of_plain 3 rfl ruleAt typed
      have met := heard.group 2 (show _ = some year by simp [Note.met])
      simp only [List.forall₂_cons] at typed
      exact heard.isReadAs (Extractor.yearFrom_eq met typed.2.2.1) (by rintro ⟨⟩) (by rintro ⟨⟩)
  | @yearTo word gap year typed =>
      obtain ⟨text, ruleAt⟩ : ∃ text, all[3]? = some (reading text .yearTo .yearTo) := ⟨_, rfl⟩
      have heard := hears_of_plain 4 rfl ruleAt typed
      have met := heard.group 2 (show _ = some year by simp [Note.met])
      simp only [List.forall₂_cons] at typed
      exact heard.isReadAs (Extractor.yearTo_eq met typed.2.2.1) (by rintro ⟨⟩) (by rintro ⟨⟩)
  | @yearExact word gap year typed =>
      obtain ⟨text, ruleAt⟩ : ∃ text, all[4]? = some (reading text .yearExact .yearExact) :=
        ⟨_, rfl⟩
      have heard := hears_of_plain 5 rfl ruleAt typed
      have met := heard.group 1 (show _ = some year by simp [Note.met])
      simp only [List.forall₂_cons] at typed
      exact heard.isReadAs (Extractor.yearExact_eq met typed.2.2.1) (by rintro ⟨⟩) (by rintro ⟨⟩)
  | @yearRange start hyphen stop typed order =>
      obtain ⟨text, ruleAt⟩ : ∃ text, all[5]? = some (reading text .yearRange .yearRange) :=
        ⟨_, rfl⟩
      have heard := hears_of_plain 6 rfl ruleAt typed
      have met := heard.group 1 (show _ = some start by simp [Note.met, List.lookup_cons])
      have met' := heard.group 2 (show _ = some stop by simp [Note.met])
      simp only [List.forall₂_cons] at typed
      exact heard.isReadAs (Extractor.yearRange_eq met met' typed.1 typed.2.2.1 order)
        (by rintro ⟨⟩) (by rintro ⟨⟩)
  | ratingMin typed rating =>
      obtain ⟨text, ruleAt⟩ : ∃ text, all[6]? = some (reading text .ratingMin .ratingMin) :=
        ⟨_, rfl⟩
      have heard := hears_of_plain 7 rfl ruleAt typed
      exact heard.isReadAs_lowest (by simp [Note.met]) rating (by rintro ⟨⟩)
  | @ratingMax word gap bound space high d typed rating =>
      obtain ⟨text, ruleAt⟩ : ∃ text, all[7]? = some (reading text .ratingMax .ratingMax) :=
        ⟨_, rfl⟩
      have heard := hears_of_plain 8 rfl ruleAt typed
      have met := heard.group 2 (show _ = some high by simp [Note.met])
      exact heard.isReadAs (Extractor.ratingMax_eq rfl met rating) (by rintro ⟨⟩) (by rintro ⟨⟩)
  | @ratingRange word gap between low before link behind high d d' typed rating rating' order
      short =>
      obtain ⟨text, ruleAt⟩ : ∃ text, all[8]? = some (reading text .ratingRange .ratingRange) :=
        ⟨_, rfl⟩
      have heard := hears_of_plain 9 rfl ruleAt typed
      have met := heard.group 1 (show _ = some low by simp [Note.met, List.lookup_cons])
      have met' := heard.group 2 (show _ = some high by simp [Note.met])
      exact heard.isReadAs (Extractor.ratingRange_eq met met' rating rating' order) (by rintro ⟨⟩)
        fun _ => yearPair_eq_nil typed short
  | ratingFloor typed rating =>
      obtain ⟨text, ruleAt⟩ : ∃ text, all[9]? = some (reading text .ratingFloor .ratingMin) :=
        ⟨_, rfl⟩
      have heard := hears_of_plain 10 rfl ruleAt typed
      exact heard.isReadAs_lowest (by simp [Note.met]) rating (by rintro ⟨⟩)
  | ratingMinimumOf typed rating =>
      obtain ⟨text, ruleAt⟩ : ∃ text, all[9]? = some (reading text .ratingFloor .ratingMin) :=
        ⟨_, rfl⟩
      have heard := hears_of_plain 11 rfl ruleAt typed
      exact heard.isReadAs_lowest (by simp [Note.met]) rating (by rintro ⟨⟩)
  | ratingPlus typed rating =>
      obtain ⟨text, ruleAt⟩ : ∃ text, all[10]? = some (reading text .ratingMin .ratingMin) :=
        ⟨_, rfl⟩
      have heard := hears_of_plain 12 rfl ruleAt typed
      exact heard.isReadAs_lowest (by simp [Note.met]) rating (by rintro ⟨⟩)
  | @provider provider name on gap texts named typed =>
      obtain ⟨text, ruleAt⟩ := DefaultRules.exists_naming provider
      have heard := hears_of_form ruleAt (DefaultRules.mem_forms_of_provider named) typed
      exact heard.isReadAs rfl (by rintro ⟨⟩) (by rintro ⟨⟩)
  | genre named typed => exact isReadAs_of_genreName named typed
  | @genreExclude name id word gap texts named typed =>
      obtain ⟨text, ruleAt⟩ : ∃ text, all[17]? = some (reading text .genreExclude .genre) :=
        ⟨_, rfl⟩
      have heard := hears_of_form ruleAt (DefaultRules.mem_forms_of_genreExclude named) typed
      simp only [List.forall₂_cons] at typed
      have length : name.length = texts.length := typed.2.2.length_eq
      have met := heard.group 1 (show _ = some texts.flatten by simp [Note.met, length])
      have id := DefaultRules.genreId?_of_named named typed.2.2
      exact heard.isReadAs (Extractor.genre_eq rfl met id) (by rintro ⟨⟩) (by rintro ⟨⟩)
  | region named typed =>
      obtain ⟨text, ruleAt⟩ := DefaultRules.exists_located named
      have heard := hears_of_form ruleAt (DefaultRules.mem_forms_of_region named) typed
      exact heard.isReadAs rfl (by rintro ⟨⟩) (by rintro ⟨⟩)

/-- A range of ratings in letters of both cases, with a tab between its first words, a fraction and
an Arabic digit. -/
theorem isReadAs_of_isPhrase_between :
    IsPhrase "Rated\tBETWEEN 7.5 to \u0669".toList .ratingRange
        (.ratings ⟨some (Decimal.toBinary64 ⟨75, -1⟩), some (Decimal.toBinary64 ⟨9, 0⟩)⟩) ∧
      IsReadAs "Rated\tBETWEEN 7.5 to \u0669".toList .ratingRange
        (.ratings ⟨some (Decimal.toBinary64 ⟨75, -1⟩), some (Decimal.toBinary64 ⟨9, 0⟩)⟩) := by
  have low : IsRating "7.5".toList ⟨75, -1⟩ := by
    refine ⟨?_, by rw [Decimal.value_toRatio]; norm_num⟩
    have whole : IsDigits ['7'] := ⟨by decide, List.forall_mem_singleton.mpr (by decide)⟩
    have places : IsDigits ['5'] := ⟨by decide, List.forall_mem_singleton.mpr (by decide)⟩
    exact .point whole places
  have high : IsRating ['\u0669'] ⟨9, 0⟩ := by
    refine ⟨?_, by rw [Decimal.value_toRatio]; norm_num⟩
    exact .whole ⟨by decide, List.forall_mem_singleton.mpr (by decide)⟩
  have tab : Part.IsGap ['\t'] := ⟨by decide, List.forall_mem_singleton.mpr (by decide)⟩
  have gap : Part.IsGap [' '] := ⟨by decide, List.forall_mem_singleton.mpr (by decide)⟩
  have between : (Part.lead ["between"]).Writes "BETWEEN ".toList :=
    .inr ⟨"BETWEEN".toList, [' '], by decide, ⟨"between", by decide, by decide⟩, gap⟩
  have typed : Writes
      [.word ["rate", "rated"], .gap, .lead ["between"], .numeral, .space,
        .word ["-", "to", "and"], .space, .numeral]
      ["Rated".toList, ['\t'], "BETWEEN ".toList, "7.5".toList, [' '], "to".toList, [' '],
        ['\u0669']] :=
    .cons ⟨"rated", by decide, by decide⟩ (.cons tab (.cons between (.cons ⟨_, low.typed⟩
      (.cons gap.blank (.cons ⟨"to", by decide, by decide⟩ (.cons gap.blank
        (.cons ⟨_, high.typed⟩ .nil)))))))
  have phrase := IsPhrase.ratingRange typed low high
    (by rw [Decimal.value_toRatio, Decimal.value_toRatio]; norm_num) (by decide)
  exact ⟨phrase, isReadAs_of_isPhrase phrase⟩

end FilmQuery
