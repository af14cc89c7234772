/-
# The names of genre words

A word for a genre can be written in many ways: in either case, with other characters that count as
its letters, with any blanks, with or without a hyphen, in the singular or in the plural.  All of
them fold to a name in the catalog but those with a dotted capital or a dotless small `i`, which
count as an `i` when case is ignored and yet do not fold to one (`genreId?_isSome_iff`).

For any other character the folded form is its face (`fold_eq_face`), so a word folds to what its
spelling folds to, and there are only finitely many of these.  The two exceptions leave a mark that
nothing removes (`mem_foldedGenre`).
-/
import FilmQuery.Proofs.Rule.Exclusions
import FilmQuery.Proofs.Rule.Respaced

namespace FilmQuery

open Catalog (squeeze genreIds foldedGenre genreId?)
open Text (isBlank isWord face fold phraseChars sameLetter trim)

namespace Text

/-- Whether a character counts as an `i` and yet does not fold to one. -/
def isStrayI (c : Char) : Bool := c == 'İ' || c == 'ı'

/-- What a stray `i` leaves behind when it is folded. -/
def strayMark (c : Char) : Char := if c == 'İ' then '\u0307' else c

/-- The mark of a stray `i` is in its folded form, and it is none of the characters that are dropped
from a name. -/
theorem strayMark_spec {c : Char} (stray : isStrayI c = true) :
    strayMark c ∈ fold c ∧ isBlank (strayMark c) = false ∧ strayMark c ≠ '-' ∧
      strayMark c ∉ ['s', 'e', 'i'] := by
  have either : c = 'İ' ∨ c = 'ı' := by simpa [isStrayI] using stray
  rcases either with rfl | rfl <;> decide

/-- Whatever counts as a character of a phrase folds to its face, or it is a stray `i`. -/
theorem fold_eq_face {p c : Char} (phrase : p ∈ phraseChars) (same : sameLetter p c = true)
    (noStray : isStrayI c = false) : fold c = [face c] := by
  have forms : (phraseChars.all fun p => (smallForms p).all fun small =>
      small.toNat != 0 && (small.toNat :: sources small.toNat).all fun n =>
        isStrayI (Char.ofNat n) || fold (Char.ofNat n) == [face (Char.ofNat n)]) = true := by
    decide +kernel
  have here := holds_of_sameLetter (fun c => isStrayI c || fold c == [face c])
    (List.all_eq_true.mp forms p phrase) same
  rw [noStray, Bool.false_or] at here
  exact eq_of_beq here

end Text

namespace Pattern

variable {pattern : Pattern} {spellings : List (List Char)} {text : List Char}

/-- Where nothing is open but letters and blanks, every character is a blank or counts as a
character of phrases. -/
theorem counts_of_spells (listed : pattern.spellings? = some spellings)
    (spelled : pattern.Spells true text) :
    ∀ c ∈ text, isBlank c = true ∨ ∃ p ∈ phraseChars, sameLetter p c = true := by
  induction pattern generalizing spellings text with
  | nothing | boundary | atStart | atEnd | absent body ih =>
      obtain rfl : text = [] := spelled
      nofun
  | char p =>
      obtain ⟨c, rfl, same⟩ := spelled
      obtain ⟨phrase, _⟩ := Option.ite_none_right_eq_some.mp listed
      intro d mem
      rw [List.mem_singleton.mp mem]
      exact .inr ⟨p, List.contains_iff_mem.mp phrase, same⟩
  | oneOf members =>
      obtain ⟨c, rfl, has⟩ := spelled
      obtain ⟨same, _⟩ := Option.ite_none_right_eq_some.mp listed
      cases same
      intro d mem
      rw [List.mem_singleton.mp mem]
      exact .inl (by simpa [isIn, CharClass.has] using has)
  | any => cases listed
  | seq a b first second =>
      obtain ⟨front, back, ofA, ofB, rfl⟩ := spelled
      obtain ⟨_, listedA, rest⟩ := Option.bind_eq_some_iff.mp listed
      obtain ⟨_, listedB, _⟩ := Option.map_eq_some_iff.mp rest
      exact List.forall_mem_append.mpr ⟨first listedA ofA, second listedB ofB⟩
  | alt a b first second =>
      obtain ⟨_, listedA, rest⟩ := Option.bind_eq_some_iff.mp listed
      obtain ⟨_, listedB, _⟩ := Option.map_eq_some_iff.mp rest
      exact spelled.elim (first listedA) (second listedB)
  | group index body ih => exact ih listed spelled
  | repeated least most eager body ih =>
      obtain ⟨parts, ofBody, _, _, rfl⟩ := spelled
      obtain ⟨_, listedBody⟩ : ∃ inner, body.spellings? = some inner := by
        change (if least = 0 ∧ most = some 1 then body.spellings?.map ([] :: ·)
          else if least = 1 ∧ body = blank then some [[' ']]
          else none) = some spellings at listed
        split at listed
        · obtain ⟨inner, listedBody, _⟩ := Option.map_eq_some_iff.mp listed
          exact ⟨inner, listedBody⟩
        · obtain ⟨⟨_, same⟩, _⟩ := Option.ite_none_right_eq_some.mp listed
          exact ⟨[[' ']], by rw [same]; rfl⟩
      intro c mem
      obtain ⟨part, inParts, inPart⟩ := List.mem_flatten.mp mem
      exact ih listedBody (ofBody part inParts) c inPart

end Pattern

namespace Catalog

variable {word : List Char} {c : Char}

/-- A text that folds to its faces, blanks apart, is squeezed like its faces. -/
theorem squeeze_flatMap_fold (inRun : Bool)
    (folds : ∀ c ∈ word, isBlank c = true ∨ fold c = [face c]) :
    squeeze inRun (word.flatMap fold) = squeeze inRun (word.map face) := by
  have space : isBlank ' ' = true := by decide
  induction word generalizing inRun with
  | nil => rfl
  | cons c word ih =>
      obtain ⟨here, later⟩ := List.forall_mem_cons.mp folds
      rw [List.flatMap_cons, List.map_cons]
      rcases here with blank | same
      · rw [fold_of_isBlank blank, Text.face_of_isBlank blank, List.singleton_append, squeeze,
          squeeze, if_pos blank, if_pos space, ih true later]
      · rw [same, List.singleton_append, squeeze, squeeze, ih true later, ih false later]

/-- What is no blank is not squeezed out. -/
theorem mem_squeeze (inRun : Bool) (mem : c ∈ word) (solid : isBlank c = false) :
    c ∈ squeeze inRun word := by
  induction word generalizing inRun with
  | nil => cases mem
  | cons d word ih =>
      rw [squeeze]
      rcases List.mem_cons.mp mem with rfl | later
      · rw [solid, if_neg Bool.false_ne_true]
        exact List.mem_cons_self
      · split
        · split
          · exact ih true later
          · exact List.mem_cons_of_mem _ (ih true later)
        · exact List.mem_cons_of_mem _ (ih false later)

/-- Of a plural only its last letters are taken off. -/
theorem mem_singularY (mem : c ∈ word) (kept : c ∉ ['s', 'e', 'i']) : c ∈ singularY word := by
  unfold singularY
  split
  next stem plural =>
    have inReverse : c ∈ 's' :: 'e' :: 'i' :: stem := plural ▸ List.mem_reverse.mpr mem
    simp only [List.mem_cons, List.not_mem_nil, or_false, not_or] at inReverse kept
    simp [(inReverse.resolve_left kept.1).resolve_left kept.2.1 |>.resolve_left kept.2.2]
  next => exact mem

theorem mem_withoutS (mem : c ∈ word) (kept : c ≠ 's') : c ∈ withoutS word := by
  unfold withoutS
  split
  next stem plural =>
    have inReverse : c ∈ 's' :: stem := plural ▸ List.mem_reverse.mpr mem
    exact List.mem_reverse.mpr ((List.mem_cons.mp inReverse).resolve_left kept)
  next => exact mem

/-- The mark of a stray `i` in a word is kept in its folded name. -/
theorem mem_foldedGenre {word : List Char} {c : Char} (mem : c ∈ trim word)
    (stray : Text.isStrayI c = true) : Text.strayMark c ∈ foldedGenre word := by
  obtain ⟨folded, solid, noHyphen, kept⟩ := Text.strayMark_spec stray
  refine mem_withoutS (mem_singularY (List.mem_filter.mpr ⟨?_, bne_iff_ne.mpr noHyphen⟩) kept) ?_
  · exact mem_squeeze false (List.mem_flatMap.mpr ⟨c, mem, folded⟩) solid
  · exact fun same => kept (same ▸ List.mem_cons_self)

/-- No genre has a stray `i` or its mark in its name. -/
theorem genreId?_of_stray {word : List Char} {c : Char} (mem : c ∈ trim word)
    (stray : Text.isStrayI c = true) : genreId? word = none := by
  have unmarked : (genreIds.all fun entry => ['İ', 'ı'].all fun c =>
      !entry.1.toList.contains (Text.strayMark c)) = true := by
    decide
  rw [Option.eq_none_iff_forall_ne_some]
  intro id named
  obtain ⟨before, behind, split, _⟩ := List.lookup_eq_some_iff.mp named
  have listed : (String.ofList (foldedGenre word), id) ∈ genreIds :=
    split ▸ List.mem_append_right _ List.mem_cons_self
  have free := List.all_eq_true.mp (List.all_eq_true.mp unmarked _ listed) c
    (by simpa [Text.isStrayI] using stray)
  rw [String.toList_ofList, List.contains_iff_mem.mpr (mem_foldedGenre mem stray)] at free
  cases free

end Catalog

open Pattern (genreWord)

/-- What a spelling of a genre word folds to. -/
def Catalog.foldedSpelling (spelling : List Char) : List Char :=
  Catalog.withoutS (Catalog.singularY (spelling.filter (· != '-')))

/-- Every spelling of a genre word folds to the name of a genre. -/
theorem genreWord_named : genreWord.spellings?.any (fun spellings => spellings.all fun spelling =>
    (genreIds.lookup (String.ofList (Catalog.foldedSpelling spelling))).isSome) = true := by
  simp only [genreWord]
  delta Catalog.genreWords
  simp only [String.toList_append, String.reduceToList]
  decide +kernel

/-- A word for a genre begins and ends without a blank. -/
theorem trim_of_genreWord {word : List Char} (spelled : genreWord.Spells true word) :
    trim word = word := by
  have opens := Pattern.head?_isWord_of_opensWord Pattern.genreWord_checked.2.2.1 spelled
  have closes := Pattern.getLast?_isWord_of_closesWord Pattern.genreWord_checked.2.2.2.1 spelled
  obtain ⟨c, first, isWord⟩ := (Option.any_eq_true _ _).mp opens
  obtain ⟨d, last, isWord'⟩ := (Option.any_eq_true _ _).mp closes
  have begins : word.head?.any isBlank = false := by
    rw [first, Option.any_some, Text.isBlank_eq_false_of_isWord isWord]
  have ends : word.getLast?.any isBlank = false := by
    rw [last, Option.any_some, Text.isBlank_eq_false_of_isWord isWord']
  exact Text.trim_eq_self begins ends

/-- A word for a genre without a stray `i` folds to what its spelling folds to. -/
theorem foldedGenre_eq {word : List Char} (spelled : genreWord.Spells true word)
    (noStray : ∀ c ∈ word, Text.isStrayI c = false) :
    foldedGenre word = Catalog.foldedSpelling (skeleton word) := by
  obtain ⟨spellings, listed, _⟩ := (Option.any_eq_true _ _).mp genreWord_named
  have folds : ∀ c ∈ word, isBlank c = true ∨ fold c = [face c] := by
    intro c mem
    refine (Pattern.counts_of_spells listed spelled c mem).imp id ?_
    rintro ⟨p, phrase, same⟩
    exact Text.fold_eq_face phrase same (noStray c mem)
  rw [foldedGenre, trim_of_genreWord spelled, Catalog.squeeze_flatMap_fold false folds]
  rfl

/-- A word for a genre folds to the name of a genre unless it has a stray `i`. -/
theorem genreId?_isSome_iff {word : List Char} (spelled : genreWord.Spells true word) :
    (genreId? word).isSome = true ↔ ∀ c ∈ word, Text.isStrayI c = false := by
  constructor
  · intro named c mem
    rw [Bool.eq_false_iff]
    intro stray
    rw [Catalog.genreId?_of_stray ((trim_of_genreWord spelled).symm ▸ mem) stray] at named
    cases named
  · intro noStray
    obtain ⟨spellings, listed, named⟩ := (Option.any_eq_true _ _).mp genreWord_named
    rw [genreId?, foldedGenre_eq spelled noStray]
    exact List.all_eq_true.mp named _ (Pattern.skeleton_mem_spellings listed spelled)

end FilmQuery
