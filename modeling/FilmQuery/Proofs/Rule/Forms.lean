/-
# The forms of phrases

A form is a phrase in parts: words in either case, blanks, years and numerals.  Each form of record
is listed with the rule that looks for it and with the parts that the groups of that rule are to
meet.  What is left open in a form comes down to a few sketches, and in each of them the pattern of
the rule is met as a whole, which is checked once for all (`forms_met`).  So a rule finds a phrase
of its form from the first character to the last one (`find_of_form`).
-/
import FilmQuery.Proofs.Number.Typed
import FilmQuery.Proofs.Pattern.Sketch
import FilmQuery.Proofs.Rule.Grammar
import Mathlib.Tactic.FinCases

namespace FilmQuery

open Catalog (Provider)
open Number.Numeral (IsDigits Typed)
open Text (isBlank isDigit phraseChars uncased)

/-- A part of a phrase. -/
inductive Part where
  /-- One of some words, in either case. -/
  | word (words : List String)
  /-- One of some words with blanks behind it, or nothing. -/
  | lead (words : List String)
  /-- Blanks. -/
  | gap
  /-- Blanks, or nothing. -/
  | space
  /-- Four digits. -/
  | year
  /-- Digits, or digits with a point among them. -/
  | numeral
  deriving DecidableEq, Repr

namespace Part

/-- Whether a text is one of some words, in either case. -/
def IsOneOf (words : List String) (text : List Char) : Prop :=
  ∃ word ∈ words, uncased text = word.toList

/-- Blanks, and at least one of them. -/
structure IsGap (text : List Char) : Prop where
  nonempty : text ≠ []
  blank : ∀ c ∈ text, isBlank c = true

/-- Whether a text is written for a part. -/
def Writes : Part → List Char → Prop
  | .word words, text => IsOneOf words text
  | .lead words, text =>
    text = [] ∨ ∃ word gap, text = word ++ gap ∧ IsOneOf words word ∧ IsGap gap
  | .gap, text => IsGap text
  | .space, text => ∀ c ∈ text, isBlank c = true
  | .year, text => text.length = 4 ∧ ∀ c ∈ text, isDigit c = true
  | .numeral, text => ∃ d, Typed text d

/-- A character that stands for itself in a sketch. -/
def plain (c : Char) : Stroke := ⟨.char c, false⟩

/-- The sketches that draw what can be written for a part. -/
def sketches : Part → List (List Stroke)
  | .word words => words.map fun word => word.toList.map plain
  | .lead words => [] :: words.map fun word => word.toList.map plain ++ [⟨.blank, true⟩]
  | .gap => [[⟨.blank, true⟩]]
  | .space => [[], [⟨.blank, true⟩]]
  | .year => [List.replicate 4 ⟨.digit, false⟩]
  | .numeral => [[⟨.digit, true⟩], [⟨.digit, true⟩, plain '.', ⟨.digit, true⟩]]

/-- Whether all words are written with characters of phrases. -/
def isPlain : Part → Bool
  | .word words | .lead words => words.all fun word => word.toList.all phraseChars.contains
  | _ => true

end Part

namespace Part

theorem forall₂_map {α β γ : Type} {R : β → γ → Prop} {f : α → β} {g : α → γ} {items : List α}
    (alike : ∀ x ∈ items, R (f x) (g x)) : List.Forall₂ R (items.map f) (items.map g) := by
  rw [List.forall₂_map_left_iff, List.forall₂_map_right_iff, List.forall₂_same]
  exact alike

theorem draws_run {ink : Ink} {text : List Char} (nonempty : text ≠ [])
    (drawn : ∀ c ∈ text, ink.Draws c) : Stroke.Draws ⟨ink, true⟩ text :=
  ⟨nonempty, drawn, fun single => by cases single⟩

theorem draws_singleton {ink : Ink} {c : Char} (drawn : ink.Draws c) :
    Stroke.Draws ⟨ink, false⟩ [c] :=
  ⟨List.cons_ne_nil c [], fun _ mem => List.mem_singleton.mp mem ▸ drawn, fun _ => rfl⟩

theorem flatten_map_singleton (text : List Char) : (text.map fun c => [c]).flatten = text := by
  rw [← List.flatMap_def, List.flatMap_singleton']

/-- A word is drawn character by character. -/
theorem draws_word {words : List String}
    (plainly : (words.all fun word => word.toList.all phraseChars.contains) = true)
    {text : List Char} (isOneOf : IsOneOf words text) :
    ∃ word ∈ words,
      List.Forall₂ Stroke.Draws (word.toList.map plain) (text.map fun c => [c]) := by
  obtain ⟨word, mem, same⟩ := isOneOf
  have phrase := List.all_eq_true.mp (List.all_eq_true.mp plainly word mem)
  refine ⟨word, mem, ?_⟩
  rw [← same, uncased, List.map_map]
  refine forall₂_map fun c inText => draws_singleton ⟨?_, rfl⟩
  exact List.contains_iff_mem.mp (phrase _ (same ▸ List.mem_map_of_mem inText))

/-- What is written for a part is drawn by one of its sketches. -/
theorem exists_sketch {part : Part} (plainly : part.isPlain = true) {text : List Char}
    (writes : part.Writes text) :
    ∃ sketch ∈ part.sketches, ∃ texts, List.Forall₂ Stroke.Draws sketch texts ∧
      texts.flatten = text := by
  have run {ink : Ink} {text : List Char} (nonempty : text ≠ []) (drawn : ∀ c ∈ text, ink.Draws c) :
      List.Forall₂ Stroke.Draws [⟨ink, true⟩] [text] :=
    .cons (draws_run nonempty drawn) .nil
  cases part with
  | word words =>
      obtain ⟨word, mem, drawn⟩ := draws_word plainly writes
      exact ⟨_, List.mem_map_of_mem mem, _, drawn, flatten_map_singleton text⟩
  | lead words =>
      rcases writes with rfl | ⟨front, gap, rfl, isOneOf, isGap⟩
      · exact ⟨[], List.mem_cons_self, [], .nil, rfl⟩
      · obtain ⟨word, mem, drawn⟩ := draws_word plainly isOneOf
        refine ⟨_, List.mem_cons_of_mem _ (List.mem_map_of_mem mem), _,
          List.rel_append drawn (run isGap.nonempty isGap.blank), ?_⟩
        rw [List.flatten_append, flatten_map_singleton, List.flatten_singleton]
  | gap =>
      exact ⟨_, List.mem_singleton_self _, [text], run writes.nonempty writes.blank,
        List.flatten_singleton⟩
  | space =>
      by_cases nonempty : text = []
      · exact ⟨[], List.mem_cons_self, [], .nil, nonempty.symm⟩
      · exact ⟨_, List.mem_cons_of_mem _ List.mem_cons_self, [text], run nonempty writes,
          List.flatten_singleton⟩
  | year =>
      obtain ⟨four, digits⟩ := writes
      refine ⟨_, List.mem_singleton_self _, _, ?_, flatten_map_singleton text⟩
      rw [← four, ← List.map_const']
      exact forall₂_map fun c mem => draws_singleton (digits c mem)
  | numeral =>
      obtain ⟨d, typed⟩ := writes
      cases typed with
      | whole digits =>
          exact ⟨_, List.mem_cons_self, [text], run digits.nonempty digits.digit,
            List.flatten_singleton⟩
      | @point digits places front behind =>
          have point : Stroke.Draws (plain '.') ['.'] := draws_singleton ⟨by decide, by decide⟩
          exact ⟨_, List.mem_cons_of_mem _ List.mem_cons_self, [digits, ['.'], places],
            .cons (draws_run front.nonempty front.digit)
              (.cons point (.cons (draws_run behind.nonempty behind.digit) .nil)),
            by simp⟩

end Part

/-- The ways to choose a sketch for each of some parts. -/
def choices : List Part → List (List (List Stroke))
  | [] => [[]]
  | part :: parts => part.sketches.flatMap fun sketch => (choices parts).map (sketch :: ·)

/-- Parts that are written one behind the other are drawn by one of the choices. -/
theorem exists_choice {parts : List Part} (plainly : parts.all Part.isPlain = true)
    {texts : List (List Char)} (writes : List.Forall₂ Part.Writes parts texts) :
    ∃ choice ∈ choices parts, ∃ pieces,
      List.Forall₂ (List.Forall₂ Stroke.Draws) choice pieces ∧ pieces.map List.flatten = texts := by
  induction writes with
  | nil => exact ⟨[], List.mem_singleton_self _, [], .nil, rfl⟩
  | @cons part text parts texts here _ ih =>
      obtain ⟨first, others⟩ := Bool.and_eq_true_iff.mp plainly
      obtain ⟨sketch, isSketch, piece, drawn, rfl⟩ := Part.exists_sketch first here
      obtain ⟨choice, isChoice, pieces, drawnOthers, rfl⟩ := ih others
      exact ⟨sketch :: choice,
        List.mem_flatMap.mpr ⟨sketch, isSketch, List.mem_map_of_mem isChoice⟩, piece :: pieces,
        .cons drawn drawnOthers, rfl⟩

/-- A form of phrases: the number of the rule that looks for them, their parts, and which parts the
groups of the rule are to meet, the group completed last being the first. -/
structure Form where
  rule : Nat
  parts : List Part
  notes : List Note
  deriving DecidableEq, Repr

namespace Form

/-- What is noted of some parts is noted of their strokes. -/
def noteOf (choice : List (List Stroke)) (note : Note) : Note :=
  (note.1, (choice.take note.2.1).flatten.length, (choice.take note.2.2).flatten.length)

/-- Whether a pattern is met in all sketches of a form, its groups in the parts that are noted. -/
def isMet (form : Form) (pattern : Pattern) : Bool :=
  form.parts.all Part.isPlain &&
    (form.notes.all fun note => 0 < note.1 && note.1 ≤ pattern.groupCount) &&
      (choices form.parts).all fun choice =>
        pattern.isMetBy choice.flatten (form.notes.map (noteOf choice))

/-- What is noted of some strokes has met the texts of the parts. -/
theorem met_noteOf {choice : List (List Stroke)} {pieces : List (List (List Char))}
    (drawn : List.Forall₂ (List.Forall₂ Stroke.Draws) choice pieces) (note : Note) :
    Note.met pieces.flatten (noteOf choice note) = Note.met (pieces.map List.flatten) note := by
  obtain ⟨index, start, stop⟩ := note
  have length (n : Nat) : (choice.take n).flatten.length = (pieces.take n).flatten.length :=
    (List.rel_flatten (List.forall₂_take n drawn)).length_eq
  have behind : pieces.flatten.drop (pieces.take start).flatten.length =
      (pieces.drop start).flatten := by
    conv_lhs => rw [← List.take_append_drop start pieces, List.flatten_append]
    rw [List.take_append_drop, List.drop_left]
  simp only [Note.met, noteOf, length, behind, take_flatten_drop, List.flatten_flatten,
    List.map_take, List.map_drop]

/-- A pattern that is met in a form occurs once in what is written in the form, and the occurrence
is the whole text. -/
theorem occurrences_of_isMet {form : Form} {pattern : Pattern} (solid : ¬ pattern.Spells true [])
    (met : form.isMet pattern = true) {texts : List (List Char)}
    (writes : List.Forall₂ Part.Writes form.parts texts) :
    pattern.occurrences true texts.flatten =
      [⟨0, texts.flatten.length, texts.flatten, pattern.groupCount,
        form.notes.map (Note.met texts)⟩] := by
  simp only [isMet, Bool.and_eq_true] at met
  obtain ⟨⟨plainly, _⟩, inAll⟩ := met
  obtain ⟨choice, isChoice, pieces, drawn, rfl⟩ := exists_choice plainly writes
  have found := Pattern.occurrences_of_isMetBy solid (List.all_eq_true.mp inAll choice isChoice)
    (List.rel_flatten drawn)
  rw [List.flatten_flatten] at found
  rw [found, List.map_map]
  congr 2
  exact List.map_congr_left fun note _ => met_noteOf drawn note

end Form

namespace DefaultRules

/-- The names that a provider can be asked for by. -/
def providerNames : List (Provider × List Part) :=
  [(.netflix, [.word ["netflix"]]),
    (.disneyPlus, [.word ["disney"]]),
    (.disneyPlus, [.word ["disney"], .space, .word ["+", "plus"]]),
    (.amazonPrimeVideo, [.word ["amazon", "prime"]]),
    (.amazonPrimeVideo, [.word ["amazon"], .gap, .word ["prime"]]),
    (.amazonPrimeVideo, [.word ["prime"], .gap, .word ["video"]]),
    (.amazonPrimeVideo, [.word ["amazon"], .gap, .word ["prime"], .gap, .word ["video"]]),
    (.hboMax, [.word ["hbo"]]),
    (.hboMax, [.word ["hbo"], .gap, .word ["max"]]),
    (.hulu, [.word ["hulu"]]),
    (.appleTvPlus, [.word ["apple"], .gap, .word ["tv"]]),
    (.appleTvPlus, [.word ["apple"], .gap, .word ["tv"], .space, .word ["+", "plus"]])]

/-- The genre words that are one word, with the numbers of their genres. -/
def genreWords : List (List String × Int) :=
  [(["sci-fi", "scifi"], 878), (["action"], 28), (["thriller", "thrillers"], 53),
    (["comedy", "comedies"], 35), (["drama", "dramas"], 18), (["horror"], 27),
    (["romance", "romances"], 10749), (["documentary", "documentaries"], 99),
    (["animation", "animated"], 16), (["crime"], 80), (["family"], 10751), (["fantasy"], 14),
    (["history"], 36), (["music"], 10402), (["mystery", "mysteries"], 9648), (["war"], 10752),
    (["western", "westerns"], 37)]

/-- The genre words with the numbers of their genres. -/
def genreNames : List (List Part × Int) :=
  ([.word ["science"], .gap, .word ["fiction"]], 878) ::
    genreWords.map fun (words, id) => ([.word words], id)

/-- A name of a region, with the code of the region, the number of the rule that looks for it and
the words that can stand before the name. -/
structure RegionName where
  code : String
  rule : Nat
  articles : List String
  parts : List Part

/-- The names that a region can be asked for by. -/
def regionNames : List RegionName :=
  [⟨"US", 19, ["the"], [.word ["usa", "us", "america"]]⟩,
    ⟨"US", 19, ["the"], [.word ["united"], .gap, .word ["states"]]⟩,
    ⟨"GB", 20, ["the"], [.word ["uk", "britain"]]⟩,
    ⟨"GB", 20, ["the"], [.word ["great"], .gap, .word ["britain"]]⟩,
    ⟨"GB", 20, ["the"], [.word ["united"], .gap, .word ["kingdom"]]⟩,
    ⟨"IN", 21, [], [.word ["india"]]⟩,
    ⟨"JP", 22, [], [.word ["japan"]]⟩,
    ⟨"KR", 23, [], [.word ["korea"]]⟩,
    ⟨"KR", 23, [], [.word ["south"], .gap, .word ["korea"]]⟩,
    ⟨"FR", 24, [], [.word ["france"]]⟩,
    ⟨"DE", 25, [], [.word ["germany"]]⟩,
    ⟨"CA", 26, [], [.word ["canada"]]⟩]

/-- The number of the rule that looks for a provider. -/
def providerRule : Provider → Nat
  | .netflix => 11
  | .disneyPlus => 12
  | .amazonPrimeVideo => 13
  | .hboMax => 14
  | .hulu => 15
  | .appleTvPlus => 16

/-- The forms of record but for those with names. -/
def plainForms : List Form :=
  [⟨0, [.word ["movie", "movies", "film", "films"]], [(1, 0, 1)]⟩,
    ⟨1, [.word ["tv"], .gap, .word ["show", "shows", "series"]], [(1, 0, 3)]⟩,
    ⟨1, [.word ["series", "television", "shows"]], [(1, 0, 1)]⟩,
    ⟨2, [.word ["from", "since", "after"], .gap, .year], [(2, 2, 3), (1, 0, 1)]⟩,
    ⟨3, [.word ["before", "until"], .gap, .year], [(2, 2, 3), (1, 0, 1)]⟩,
    ⟨4, [.word ["in"], .gap, .year], [(1, 2, 3)]⟩,
    ⟨5, [.year, .word ["-"], .year], [(2, 2, 3), (1, 0, 1)]⟩,
    ⟨6, [.word ["rate", "rated"], .gap, .word ["above", "over", "more than", ">"], .space,
      .numeral], [(2, 4, 5), (1, 2, 3)]⟩,
    ⟨7, [.word ["rate", "rated"], .gap, .word ["below", "under", "less than", "<"], .space,
      .numeral], [(2, 4, 5), (1, 2, 3)]⟩,
    ⟨8, [.word ["rate", "rated"], .gap, .lead ["between"], .numeral, .space,
      .word ["-", "to", "and"], .space, .numeral], [(2, 7, 8), (1, 3, 4)]⟩,
    ⟨9, [.word ["rated", "rating"], .gap, .lead ["of"], .word ["at least", "minimum"], .gap,
      .numeral], [(2, 5, 6), (1, 3, 4)]⟩,
    ⟨9, [.word ["rated", "rating"], .gap, .lead ["of"], .word ["minimum"], .gap, .word ["of"], .gap,
      .numeral], [(2, 7, 8), (1, 3, 6)]⟩,
    ⟨10, [.word ["rate", "rated"], .space, .numeral, .word ["+"]], [(1, 2, 3)]⟩]

/-- The forms of record. -/
def forms : List Form :=
  plainForms ++
    (providerNames.map fun (provider, parts) =>
      ⟨providerRule provider, .word ["on"] :: .gap :: parts, [(1, 2, parts.length + 2)]⟩) ++
    (genreNames.flatMap fun (parts, _) =>
      [⟨17, .word ["no", "without", "not", "except"] :: .gap :: parts, [(1, 2, parts.length + 2)]⟩,
        ⟨18, parts, [(1, 0, parts.length)]⟩]) ++
    (regionNames.map fun region =>
      ⟨region.rule, .word ["in"] :: .gap :: .lead region.articles :: region.parts,
        [(1, 3, region.parts.length + 3)]⟩)

section Listed

variable {parts : List Part}

theorem mem_forms_of_plain {form : Form} {number : Nat}
    (listed : plainForms[number]? = some form) : form ∈ forms :=
  List.mem_append_left _ (List.mem_append_left _ (List.mem_append_left _
    (List.mem_of_getElem? listed)))

theorem mem_forms_of_provider {provider : Provider} (named : (provider, parts) ∈ providerNames) :
    ⟨providerRule provider, .word ["on"] :: .gap :: parts, [(1, 2, parts.length + 2)]⟩ ∈ forms :=
  List.mem_append_left _ (List.mem_append_left _ (List.mem_append_right _
    (List.mem_map.mpr ⟨_, named, rfl⟩)))

theorem mem_forms_of_genre {id : Int} (named : (parts, id) ∈ genreNames) :
    ⟨18, parts, [(1, 0, parts.length)]⟩ ∈ forms :=
  List.mem_append_left _ (List.mem_append_right _ (List.mem_flatMap.mpr
    ⟨_, named, List.mem_cons_of_mem _ (List.mem_singleton_self _)⟩))

theorem mem_forms_of_genreExclude {id : Int} (named : (parts, id) ∈ genreNames) :
    ⟨17, .word ["no", "without", "not", "except"] :: .gap :: parts, [(1, 2, parts.length + 2)]⟩ ∈
      forms :=
  List.mem_append_left _ (List.mem_append_right _ (List.mem_flatMap.mpr
    ⟨_, named, List.mem_cons_self⟩))

theorem mem_forms_of_region {region : RegionName} (named : region ∈ regionNames) :
    ⟨region.rule, .word ["in"] :: .gap :: .lead region.articles :: region.parts,
      [(1, 3, region.parts.length + 3)]⟩ ∈ forms :=
  List.mem_append_right _ (List.mem_map.mpr ⟨_, named, rfl⟩)

end Listed

theorem exists_naming (provider : Provider) :
    ∃ text, all[providerRule provider]? = some (naming text provider) := by
  cases provider <;> exact ⟨_, rfl⟩

theorem exists_located {region : RegionName} (named : region ∈ regionNames) :
    ∃ text, all[region.rule]? = some (located text region.code) := by
  fin_cases named <;> exact ⟨_, rfl⟩

theorem forms_met :
    (forms.all fun form => records[form.rule]?.any fun entry => form.isMet entry.2) = true := by
  simp only [records, all, contentTypes, years, ratings, providers, genres, regions, List.map_cons,
    List.map_nil, List.cons_append, List.nil_append, reading_shape, meaning_shape, naming_shape,
    located_shape, phrase_text, reading_kind, meaning_kind, naming_kind, located_kind, rating]
  delta Catalog.genreWords
  simp only [String.toList_append, String.reduceToList]
  decide +kernel

/-- The occurrence of a rule that is a whole phrase. -/
def spoken (rule : Rule) (notes : List Note) (texts : List (List Char)) : Occurrence :=
  ⟨0, texts.flatten.length, texts.flatten, rule.pattern.groupCount, notes.map (Note.met texts)⟩

/-- A phrase in a form of record is found by the rule of the form, from its first character to its
last one, and the groups have met the parts that are noted. -/
theorem find_of_form {k : Nat} {parts : List Part} {notes : List Note} {rule : Rule}
    (ruleAt : all[k]? = some rule) (mem : ⟨k, parts, notes⟩ ∈ forms) {texts : List (List Char)}
    (writes : List.Forall₂ Part.Writes parts texts) :
    rule.shape.find texts.flatten = [spoken rule notes texts] ∧
      ∀ note ∈ notes, 0 < note.1 ∧ note.1 ≤ rule.pattern.groupCount := by
  have member := List.mem_of_getElem? ruleAt
  have met := List.all_eq_true.mp forms_met _ mem
  rw [getElem?_records, ruleAt, Option.map_some, Option.any_some] at met
  refine ⟨?_, ?_⟩
  · rw [find_eq_occurrences member]
    exact Form.occurrences_of_isMet (Pattern.solid_of_standsAlone (standsAlone_of_mem member)) met
      writes
  · simp only [Form.isMet, Bool.and_eq_true] at met
    intro note mem
    simpa using List.all_eq_true.mp met.1.2 note mem

end DefaultRules

end FilmQuery
