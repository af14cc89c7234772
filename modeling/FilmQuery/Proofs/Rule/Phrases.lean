/-
# The phrases of record beside a separator

Every phrase begins with a word and is written with letters, digits, blanks and a few signs, so it
never reaches across a separator, and there is none in a text without words.  What a rule makes of a
phrase does not depend on where the phrase stands.
-/
import FilmQuery.Proofs.Pattern.Separation
import FilmQuery.Proofs.Text.Separator
import FilmQuery.Rule.Default

namespace FilmQuery

open Text (isWord isBlank isSeparator phraseChars sameLetter)

namespace Pattern

/-- The parts of a pattern that are not made of others. -/
def leaves : Pattern → List Pattern
  | .seq a b | .alt a b => a.leaves ++ b.leaves
  | .group _ body | .absent body | .repeated _ _ _ body => body.leaves
  | leaf => [leaf]

/-- Whether phrases are made of a pattern: the boundary of a word, a character, or a class. -/
def isPhraseLeaf : Pattern → Bool
  | .boundary | .oneOf [.ofClass .digit] | .oneOf [.ofClass .blank] | .oneOf [.ofClass .word] =>
    true
  | .char c => phraseChars.contains c
  | _ => false

/-- Whether a pattern begins with the boundary of a word and goes on as phrases do. -/
def isPhrase : Pattern → Bool
  | .seq .boundary rest => rest.leaves.all isPhraseLeaf
  | _ => false

theorem isInner_eq_all_leaves (pattern : Pattern) :
    pattern.isInner = pattern.leaves.all isInner := by
  induction pattern with
  | seq a b first second => rw [isInner, leaves, List.all_append, first, second]
  | alt a b first second => rw [isInner, leaves, List.all_append, first, second]
  | group index body ih => exact ih
  | absent body ih => exact ih
  | repeated least most eager body ih => exact ih
  | _ => rfl

theorem takes_eq_any_leaves (blind : Bool) (pattern : Pattern) (c : Char) :
    pattern.takes blind c = pattern.leaves.any (·.takes blind c) := by
  induction pattern with
  | seq a b first second => rw [takes, leaves, List.any_append, first, second]
  | alt a b first second => rw [takes, leaves, List.any_append, first, second]
  | group index body ih => exact ih
  | absent body ih => exact ih
  | repeated least most eager body ih => exact ih
  | _ => simp [leaves]

theorem isInner_of_isPhraseLeaf {leaf : Pattern} (phrase : leaf.isPhraseLeaf = true) :
    leaf.isInner = true := by
  cases leaf <;> simp_all [isPhraseLeaf, isInner]

theorem takes_eq_false_of_isPhraseLeaf {leaf : Pattern} (phrase : leaf.isPhraseLeaf = true)
    {c : Char} (separator : isSeparator c = true) : leaf.takes true c = false := by
  have apart := separator
  simp only [isSeparator, Bool.and_eq_true, Bool.not_eq_true'] at apart
  obtain ⟨⟨noWord, noBlank⟩, _⟩ := apart
  have noDigit : Text.isDigit c = false := by
    rw [Bool.eq_false_iff]
    intro digit
    rw [Text.isWord_of_isDigit digit] at noWord
    exact Bool.false_ne_true noWord.symm
  unfold isPhraseLeaf at phrase
  split at phrase
  · rfl
  · simp [takes, isIn, CharClass.has, noDigit]
  · simp [takes, isIn, CharClass.has, noBlank]
  · simp [takes, isIn, CharClass.has, noWord]
  · exact Text.sameLetter_eq_false_of_isSeparator (List.contains_iff_mem.mp phrase) separator
  · simp at phrase

/-- A phrase goes no further than to a separator. -/
theorem endsAt_of_isPhrase {pattern : Pattern} (phrase : pattern.isPhrase = true) {c : Char}
    (separator : isSeparator c = true) (right : List Char) :
    EndsAt true pattern (c :: right) := by
  unfold isPhrase at phrase
  split at phrase
  next rest =>
    have leaf := List.all_eq_true.mp phrase
    refine ⟨?_, ?_, ?_⟩
    · change rest.isInner = true
      rw [isInner_eq_all_leaves]
      exact List.all_eq_true.mpr fun part mem => isInner_of_isPhraseLeaf (leaf part mem)
    · rintro _ ⟨⟩
      change rest.takes true c = false
      rw [takes_eq_any_leaves, List.any_eq_false]
      exact fun part mem => by
        rw [takes_eq_false_of_isPhraseLeaf (leaf part mem) separator]
        exact Bool.false_ne_true
    · simp only [isSeparator, Bool.and_eq_true, Bool.not_eq_true'] at separator
      exact separator.1.1
  next => simp at phrase

/-- Where no word begins or ends, no phrase begins. -/
theorem occurrencesAt_eq_nil {pattern : Pattern} (phrase : pattern.isPhrase = true) {blind : Bool}
    {p : Place} (inside : p.isBoundary = false) : pattern.occurrencesAt blind p = [] := by
  unfold isPhrase at phrase
  split at phrase
  · simp [occurrencesAt, seek, inside]
  · simp at phrase

theorem sweep_eq_nil {pattern : Pattern} (phrase : pattern.isPhrase = true) {blind : Bool}
    {text : List Char} (wordless : ∀ c ∈ text, isWord c = false) (skip position : Nat)
    {previous : Option Char} (before : previous.any isWord = false) :
    pattern.sweep blind skip previous position text = [] := by
  induction text generalizing skip position previous with
  | nil =>
      rw [sweep, occurrencesAt_eq_nil phrase (by simp [Place.isBoundary, before]), ite_self]
  | cons c rest ih =>
      obtain ⟨here, later⟩ := List.forall_mem_cons.mp wordless
      have none : pattern.occurrencesAt blind ⟨previous, position, c :: rest, []⟩ = [] :=
        occurrencesAt_eq_nil phrase (by simp [Place.isBoundary, before, here])
      have onward (skip : Nat) : pattern.sweep blind skip (some c) (position + 1) rest = [] :=
        ih later skip (position + 1) here
      simp only [sweep, none, onward, List.append_nil, ite_self]

/-- There is no phrase in a text without words. -/
theorem occurrences_eq_nil {pattern : Pattern} (phrase : pattern.isPhrase = true) {blind : Bool}
    {text : List Char} (wordless : ∀ c ∈ text, isWord c = false) :
    pattern.occurrences blind text = [] :=
  sweep_eq_nil phrase wordless 0 0 rfl

end Pattern

/-- A rule reads the two sides of a character apart: what it finds on one side has nothing to do
with the other, and what it says of a phrase has nothing to do with the place of the phrase. -/
structure Rule.ReadsApart (rule : Rule) (c : Char) : Prop where
  find_append : ∀ left right, rule.shape.find (left ++ c :: right) =
    rule.shape.find left ++
      (rule.shape.find right).map (Occurrence.moved (left.length + 1))
  extract_moved : ∀ m distance, rule.extract (m.moved distance) = rule.extract m

namespace DefaultRules

/-- The pattern that a text writes is that of a phrase. -/
def writesPhrase (text : List Char) : Bool :=
  match Pattern.read? text with
  | some pattern => pattern.isPhrase
  | none => false

section

variable (text : String) (kind : Kind) (extractor : Extractor)

theorem reading_shape : (reading text kind extractor).shape = phrase text := rfl

theorem meaning_shape (value : Value) : (meaning text kind value).shape = phrase text := rfl

theorem naming_shape (provider : Catalog.Provider) :
    (naming text provider).shape = phrase text := rfl

theorem located_shape (code : String) : (located text code).shape = phrase text := rfl

theorem phrase_text : (phrase text).text = text := rfl

end

theorem shape_eq_phrase : ∀ rule ∈ all, rule.shape = phrase rule.shape.text := by
  simp only [all, contentTypes, years, ratings, providers, genres, regions, List.forall_mem_append,
    List.forall_mem_cons, reading_shape, meaning_shape, naming_shape, located_shape, phrase_text,
    List.not_mem_nil, IsEmpty.forall_iff, implies_true, and_self]

theorem writesPhrase_text : ∀ rule ∈ all, writesPhrase rule.shape.text.toList = true := by
  simp only [all, contentTypes, years, ratings, providers, genres, regions, List.forall_mem_append,
    List.forall_mem_cons, reading_shape, meaning_shape, naming_shape, located_shape, phrase_text,
    rating]
  delta Catalog.genreWords
  simp only [String.toList_append, String.reduceToList]
  decide +kernel

/-- What a default rule looks for is a phrase. -/
theorem exists_isPhrase {rule : Rule} (mem : rule ∈ all) :
    ∃ pattern : Pattern, pattern.isPhrase = true ∧
      ∀ chars, rule.shape.find chars = pattern.occurrences true chars := by
  have written := writesPhrase_text rule mem
  have shape := shape_eq_phrase rule mem
  unfold writesPhrase at written
  split at written
  next pattern read =>
    refine ⟨pattern, written, fun chars => ?_⟩
    rw [shape, DefaultRules.phrase, PhraseShape.ofPattern, read, Option.getD_some]
  next => simp at written

/-- Extractors read what groups have met, and never where. -/
theorem extract_placed :
    ∀ rule ∈ all, ∀ m : Occurrence, ∀ start stop,
      rule.extract { m with start, stop } = rule.extract m := by
  simp only [all, contentTypes, years, ratings, providers, genres, regions, List.forall_mem_append,
    List.forall_mem_cons, List.not_mem_nil, IsEmpty.forall_iff, implies_true, and_true]
  repeat' apply And.intro
  all_goals exact fun _ _ _ => rfl

/-- The default rules read the two sides of a separator apart. -/
theorem readsApart {rule : Rule} (mem : rule ∈ all) {c : Char} (separator : isSeparator c = true) :
    rule.ReadsApart c where
  find_append left right := by
    obtain ⟨pattern, phrase, find⟩ := exists_isPhrase mem
    rw [find, find, find]
    exact Pattern.occurrences_append (Pattern.endsAt_of_isPhrase phrase separator right)
  extract_moved m _ := extract_placed rule mem m _ _

/-- The default rules find nothing among blanks. -/
theorem find_eq_nil {rule : Rule} (mem : rule ∈ all) {chars : List Char}
    (blank : chars.all isBlank = true) : rule.shape.find chars = [] := by
  obtain ⟨pattern, phrase, find⟩ := exists_isPhrase mem
  rw [find]
  exact Pattern.occurrences_eq_nil phrase fun c inChars =>
    Text.isWord_eq_false_of_isBlank (List.all_eq_true.mp blank c inChars)

end DefaultRules

end FilmQuery
