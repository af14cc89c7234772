/-
# Respacing

A text is respaced by filling its gaps in another way.  The two texts are told at once, piece by
piece: a visible character is in both of them, and a gap has blanks of its own in each (`Piece`).
A place between two pieces is a place in either text, so whatever is cut out between such places is
cut out of both, and what is left is respaced in turn.

Some phrases are only looked for with a single space between their two words.  For them it matters
whether a gap is a single space, and a respacing `Keeps` them if it does not change that.
-/
import FilmQuery.Proofs.Rule.Forms

namespace FilmQuery

open Text (isBlank isWord sameLetter)

/-- A piece of two texts. -/
inductive Piece where
  /-- A visible character of both. -/
  | visible (c : Char) (isVisible : isBlank c = false)
  /-- A gap, with the blanks of the one and those of the other text. -/
  | gap (before after : List Char) (isGap : Part.IsGap before) (isGap' : Part.IsGap after)

namespace Piece

/-- What a piece is in the text before respacing or after it. -/
def text (respaced : Bool) : Piece → List Char
  | .visible c _ => [c]
  | .gap before after _ _ => if respaced then after else before

/-- Whether a piece is a gap. -/
def isGap : Piece → Bool
  | .visible _ _ => false
  | .gap _ _ _ _ => true

theorem text_ne_nil (respaced : Bool) (piece : Piece) : piece.text respaced ≠ [] := by
  cases piece with
  | visible c _ => exact List.cons_ne_nil c []
  | gap before after isGap isGap' =>
      cases respaced
      · exact isGap.nonempty
      · exact isGap'.nonempty

/-- A gap is blank. -/
theorem isGap_text {piece : Piece} (gap : piece.isGap = true) (respaced : Bool) :
    Part.IsGap (piece.text respaced) := by
  cases piece with
  | visible c _ => cases gap
  | gap before after isGap isGap' =>
      cases respaced
      · exact isGap
      · exact isGap'

end Piece

/-- A word is written in letters that count as its own. -/
def IsTyped (word text : List Char) : Prop :=
  List.Forall₂ (fun c d => sameLetter c d = true) word text

instance (word text : List Char) : Decidable (IsTyped word text) :=
  inferInstanceAs (Decidable (List.Forall₂ _ word text))

/-- A text ends with a word that has a blank in front of it. -/
def EndsWith (word text : List Char) : Prop :=
  ∃ front typed, text = front ++ typed ∧ front.getLast?.any isBlank = true ∧ IsTyped word typed

/-- A text begins with a word. -/
def BeginsWith (word text : List Char) : Prop :=
  ∃ typed behind, text = typed ++ behind ∧ IsTyped word typed

instance (word text : List Char) : Decidable (EndsWith word text) :=
  let front := text.take (text.length - word.length)
  let typed := text.drop (text.length - word.length)
  decidable_of_iff (front.getLast?.any isBlank = true ∧ IsTyped word typed) <| by
    constructor
    · exact fun ⟨blank, isTyped⟩ => ⟨front, typed, (List.take_append_drop _ _).symm, blank, isTyped⟩
    · rintro ⟨front', typed', rfl, blank, isTyped⟩
      have length : (front' ++ typed').length - word.length = front'.length := by
        rw [List.length_append, isTyped.length_eq, Nat.add_sub_cancel]
      simp only [front, typed, length, List.take_left, List.drop_left]
      exact ⟨blank, isTyped⟩

instance (word text : List Char) : Decidable (BeginsWith word text) :=
  decidable_of_iff (IsTyped word (text.take word.length)) <| by
    constructor
    · exact fun isTyped => ⟨_, text.drop word.length, (List.take_append_drop _ _).symm, isTyped⟩
    · rintro ⟨typed, behind, rfl, isTyped⟩
      rwa [isTyped.length_eq, List.take_left]

/-- Two texts that differ in how their gaps are filled. -/
abbrev Respacing := List Piece

namespace Respacing

/-- The text before respacing or after it. -/
def text (respaced : Bool) (r : Respacing) : List Char := r.flatMap (Piece.text respaced)

variable {respaced : Bool} {r left right : Respacing}

@[simp]
theorem text_nil : text respaced [] = [] := rfl

@[simp]
theorem text_cons (piece : Piece) (r : Respacing) :
    text respaced (piece :: r) = piece.text respaced ++ r.text respaced := rfl

@[simp]
theorem text_append (left right : Respacing) :
    text respaced (left ++ right) = left.text respaced ++ right.text respaced :=
  List.flatMap_append

@[simp]
theorem text_eq_nil_iff (respaced : Bool) : r.text respaced = [] ↔ r = [] := by
  cases r with
  | nil => simp
  | cons piece r => simp [piece.text_ne_nil]

/-- Blanks in one text are gaps. -/
theorem isBlank_of_gaps (gaps : ∀ piece ∈ r, piece.isGap = true) :
    ∀ c ∈ r.text respaced, isBlank c = true := by
  intro c mem
  obtain ⟨piece, inPieces, inText⟩ := List.mem_flatMap.mp mem
  exact (Piece.isGap_text (gaps piece inPieces) respaced).blank c inText

/-- What is visible at the beginning of one text is at the beginning of both. -/
theorem exists_visible {word behind : List Char} (split : r.text respaced = word ++ behind)
    (visible : ∀ c ∈ word, isBlank c = false) :
    ∃ front back : Respacing, r = front ++ back ∧ (∀ respaced, front.text respaced = word) ∧
      back.text respaced = behind := by
  induction word generalizing r with
  | nil => exact ⟨[], r, rfl, fun _ => rfl, split⟩
  | cons c word ih =>
      obtain ⟨here, later⟩ := List.forall_mem_cons.mp visible
      cases r with
      | nil => cases split
      | cons piece r =>
          cases piece with
          | visible d isVisible =>
              obtain ⟨rfl, rest⟩ := List.cons.inj split
              obtain ⟨front, back, rfl, same, behindEq⟩ := ih rest later
              exact ⟨.visible d isVisible :: front, back, rfl,
                fun respaced => congrArg (d :: ·) (same respaced), behindEq⟩
          | gap before after isGap isGap' =>
              obtain ⟨d, more, gapEq⟩ := List.exists_cons_of_ne_nil
                (Piece.text_ne_nil respaced (.gap before after isGap isGap'))
              rw [text_cons, gapEq] at split
              obtain rfl : d = c := (List.cons.inj split).1
              have filled : Part.IsGap (Piece.text respaced (.gap before after isGap isGap')) :=
                Piece.isGap_text rfl respaced
              have blank := filled.blank d (gapEq ▸ List.mem_cons_self)
              rw [here] at blank
              cases blank

/-- All gaps at the beginning, and what comes behind them. -/
theorem exists_gaps (r : Respacing) :
    ∃ gaps behind : Respacing, r = gaps ++ behind ∧ (∀ piece ∈ gaps, piece.isGap = true) ∧
      ∀ respaced, (behind.text respaced).head?.any isBlank = false := by
  refine ⟨r.takeWhile Piece.isGap, r.dropWhile Piece.isGap, (List.takeWhile_append_dropWhile).symm,
    fun piece mem => List.mem_takeWhile_imp mem, fun respaced => ?_⟩
  cases behindEq : r.dropWhile Piece.isGap with
  | nil => rfl
  | cons piece behind =>
      have noGap := List.head?_dropWhile_not Piece.isGap r
      rw [behindEq] at noGap
      cases piece with
      | visible c isVisible => exact isVisible
      | gap before after isGap isGap' => cases noGap

/-- If the middle of two texts is a gap between the words of a phrase, it is a single space in both
texts or in neither. -/
def KeepsAt (phrase : List Char × List Char) (left gaps right : Respacing) : Prop :=
  gaps ≠ [] → (∀ piece ∈ gaps, piece.isGap = true) → EndsWith phrase.1 (left.text false) →
    BeginsWith phrase.2 (right.text false) → (gaps.text false = [' '] ↔ gaps.text true = [' '])

instance (phrase : List Char × List Char) (left gaps right : Respacing) :
    Decidable (KeepsAt phrase left gaps right) := by
  unfold KeepsAt
  infer_instance

/-- Between the two words of a phrase there is a single space before respacing if and only if there
is one after it. -/
def Keeps (phrases : List (List Char × List Char)) (r : Respacing) : Prop :=
  ∀ phrase ∈ phrases, ∀ left gaps right : Respacing, r = left ++ (gaps ++ right) →
    KeepsAt phrase left gaps right

instance (phrases : List (List Char × List Char)) (r : Respacing) : Decidable (r.Keeps phrases) :=
  decidable_of_iff (∀ phrase ∈ phrases, ∀ i ≤ r.length, ∀ j ≤ r.length,
      KeepsAt phrase (r.take i) ((r.drop i).take j) ((r.drop i).drop j)) <| by
    constructor
    · rintro bounded phrase mem left gaps right rfl
      have here := bounded phrase mem left.length (by simp) gaps.length (by simp; omega)
      simpa only [List.take_left, List.drop_left] using here
    · intro keeps phrase mem i _ j _
      have split : r = r.take i ++ ((r.drop i).take j ++ (r.drop i).drop j) := by
        rw [List.take_append_drop, List.take_append_drop]
      exact keeps phrase mem _ _ _ split

section Phrases

variable {phrases : List (List Char × List Char)} {phrase : List Char × List Char}

theorem keeps_nil (r : Respacing) : r.Keeps [] := by simp [Keeps]

/-- Whether the parts of phrases are words of letters that patterns are made of. -/
def areWords (phrases : List (List Char × List Char)) : Bool :=
  phrases.all fun (first, second) => first != [] && second != [] &&
    (first ++ second).all fun c => Text.phraseChars.contains c && isWord c

theorem isWord_of_isTyped {word typed : List Char}
    (letters : ∀ c ∈ word, Text.phraseChars.contains c = true ∧ isWord c = true)
    (isTyped : IsTyped word typed) : ∀ d ∈ typed, isWord d = true := by
  induction isTyped with
  | nil => simp
  | cons same _ ih =>
      obtain ⟨⟨phrase, word⟩, later⟩ := List.forall_mem_cons.mp letters
      refine List.forall_mem_cons.mpr ⟨?_, ih later⟩
      rwa [← Text.isWord_face, Text.face_eq_of_sameLetter (List.contains_iff_mem.mp phrase) same]

/-- What is typed for the parts of a phrase are words, and they are not empty. -/
theorem words_of_mem (words : areWords phrases = true) (mem : phrase ∈ phrases) :
    (phrase.1 ≠ [] ∧ ∀ typed, IsTyped phrase.1 typed → ∀ c ∈ typed, isWord c = true) ∧
      phrase.2 ≠ [] ∧ ∀ typed, IsTyped phrase.2 typed → ∀ c ∈ typed, isWord c = true := by
  have letters := List.all_eq_true.mp words phrase mem
  simp only [Bool.and_eq_true, bne_iff_ne, List.all_append, List.all_eq_true] at letters
  obtain ⟨⟨some, some'⟩, letters, letters'⟩ := letters
  exact ⟨⟨some, fun _ => isWord_of_isTyped letters⟩, some', fun _ => isWord_of_isTyped letters'⟩

/-- A phrase that is in one of two texts with a single space is in both. -/
theorem Keeps.exists_phrase (keeps : r.Keeps phrases) (words : areWords phrases = true)
    (mem : phrase ∈ phrases) (split : r = left ++ right)
    (fresh : (left.text false).getLast?.any isBlank = true) {first second behind : List Char}
    (isFirst : IsTyped phrase.1 first) (isSecond : IsTyped phrase.2 second)
    (typed : right.text respaced = first ++ ' ' :: (second ++ behind)) :
    ∃ middle back : Respacing, right = middle ++ back ∧
      ∀ respaced, middle.text respaced = first ++ ' ' :: second := by
  obtain ⟨⟨_, letters⟩, some, letters'⟩ := words_of_mem words mem
  have visible : ∀ c ∈ first, isBlank c = false := fun c mem =>
    Text.isBlank_eq_false_of_isWord (letters _ isFirst c mem)
  have visible' : ∀ c ∈ second, isBlank c = false := fun c mem =>
    Text.isBlank_eq_false_of_isWord (letters' _ isSecond c mem)
  have space : isBlank ' ' = true := by decide
  obtain ⟨front, middle, rfl, frontEq, middleEq⟩ := exists_visible typed visible
  obtain ⟨gaps, back, rfl, areGaps, stops⟩ := exists_gaps middle
  have stopsSecond : (second ++ behind).head?.any isBlank = false := by
    obtain ⟨c, others, rfl⟩ := List.exists_cons_of_ne_nil (l := second) (by
      rintro rfl
      exact some (List.forall₂_nil_right_iff.mp isSecond))
    exact visible' c List.mem_cons_self
  rw [text_append] at middleEq
  obtain ⟨gapsEq, backEq⟩ : gaps.text respaced = [' '] ∧ back.text respaced = second ++ behind :=
    append_inj_of_all isBlank middleEq (isBlank_of_gaps areGaps) (by simpa using space)
      (stops respaced) stopsSecond
  obtain ⟨word, rest, rfl, wordEq, _⟩ := exists_visible backEq visible'
  -- The gap is a single space in one text, so it is in both.
  have both : ∀ respaced, gaps.text respaced = [' '] := by
    have kept := keeps phrase mem (left ++ front) gaps (word ++ rest)
      (by rw [split, List.append_assoc]) ?_ areGaps ?_ ?_
    · cases respaced
      · exact fun other => by cases other; exacts [gapsEq, kept.mp gapsEq]
      · exact fun other => by cases other; exacts [kept.mpr gapsEq, gapsEq]
    · rintro rfl
      cases gapsEq
    · exact ⟨left.text false, first, by rw [text_append, frontEq], fresh, isFirst⟩
    · exact ⟨second, rest.text false, by rw [text_append, wordEq], isSecond⟩
  refine ⟨front ++ (gaps ++ word), rest, by simp only [List.append_assoc], fun respaced => ?_⟩
  rw [text_append, text_append, frontEq, both, wordEq]
  rfl

section Cut

variable {word : List Char} {front middle behind : List Char}

theorem ne_nil_of_isTyped (filled : word ≠ []) {typed : List Char} (isTyped : IsTyped word typed) :
    typed ≠ [] := by
  rintro rfl
  exact filled (List.forall₂_nil_right_iff.mp isTyped)

theorem getLast?_isWord_of_isTyped (filled : word ≠ [])
    (letters : ∀ typed, IsTyped word typed → ∀ c ∈ typed, isWord c = true) {typed : List Char}
    (isTyped : IsTyped word typed) (front : List Char) :
    (front ++ typed).getLast?.any isWord = true := by
  have nonempty := ne_nil_of_isTyped filled isTyped
  rw [List.getLast?_append_of_ne_nil _ nonempty, List.getLast?_eq_getLast_of_ne_nil nonempty,
    Option.any_some]
  exact letters typed isTyped _ (List.getLast_mem nonempty)

theorem head?_isWord_of_isTyped (filled : word ≠ [])
    (letters : ∀ typed, IsTyped word typed → ∀ c ∈ typed, isWord c = true) {typed : List Char}
    (isTyped : IsTyped word typed) (behind : List Char) :
    (typed ++ behind).head?.any isWord = true := by
  obtain ⟨c, others, rfl⟩ := List.exists_cons_of_ne_nil (ne_nil_of_isTyped filled isTyped)
  exact letters _ isTyped c List.mem_cons_self

/-- A word at the end was there before something was cut out that began and ended with words. -/
theorem endsWith_of_cut (filled : word ≠ [])
    (letters : ∀ typed, IsTyped word typed → ∀ c ∈ typed, isWord c = true)
    (quiet : front.getLast?.any isWord = false) (quiet' : behind.head?.any isWord = false)
    (ends : EndsWith word (front ++ behind)) : EndsWith word (front ++ (middle ++ behind)) := by
  obtain ⟨before, typed, split, blank, isTyped⟩ := ends
  have head := head?_isWord_of_isTyped filled letters isTyped []
  have nonempty := ne_nil_of_isTyped filled isTyped
  rcases List.append_eq_append_iff.mp split with
    ⟨more, beforeEq, behindEq⟩ | ⟨more, frontEq, typedEq⟩
  · cases more with
    | nil =>
        rw [List.append_nil] at head
        rw [behindEq, List.nil_append, head] at quiet'
        cases quiet'
    | cons c more =>
        refine ⟨front ++ (middle ++ c :: more), typed, by simp [behindEq], ?_, isTyped⟩
        rw [beforeEq, List.getLast?_append_of_ne_nil _ (List.cons_ne_nil _ _)] at blank
        rwa [← List.append_assoc, List.getLast?_append_of_ne_nil _ (List.cons_ne_nil _ _)]
  · cases more with
    | nil =>
        rw [typedEq, List.append_nil] at head
        rw [← List.nil_append behind, head] at quiet'
        cases quiet'
    | cons c more =>
        have inTyped : (c :: more).getLast (List.cons_ne_nil _ _) ∈ typed :=
          typedEq ▸ List.mem_append_left _ (List.getLast_mem _)
        rw [frontEq, List.getLast?_append_of_ne_nil _ (List.cons_ne_nil _ _),
          List.getLast?_eq_getLast_of_ne_nil (List.cons_ne_nil _ _), Option.any_some,
          letters typed isTyped _ inTyped] at quiet
        cases quiet

/-- A word at the beginning was there before something was cut out behind which no word goes on. -/
theorem beginsWith_of_cut (letters : ∀ typed, IsTyped word typed → ∀ c ∈ typed, isWord c = true)
    (quiet : behind.head?.any isWord = false) (begins : BeginsWith word (front ++ behind)) :
    BeginsWith word (front ++ (middle ++ behind)) := by
  obtain ⟨typed, rest, split, isTyped⟩ := begins
  rcases List.append_eq_append_iff.mp split with ⟨more, typedEq, behindEq⟩ | ⟨more, frontEq, _⟩
  · cases more with
    | nil => exact ⟨typed, middle ++ behind, by rw [typedEq, List.append_nil], isTyped⟩
    | cons c more =>
        rw [behindEq, List.cons_append, List.head?_cons, Option.any_some,
          letters typed isTyped c (by simp [typedEq])] at quiet
        cases quiet
  · exact ⟨typed, more ++ (middle ++ behind), by rw [frontEq, List.append_assoc], isTyped⟩

/-- Phrases are still kept when something is cut out that has no word going on in front of it or
behind it. -/
theorem Keeps.cut {piece : Respacing} (words : areWords phrases = true)
    (keeps : Keeps phrases (left ++ (piece ++ right)))
    (quiet : (left.text false).getLast?.any isWord = false)
    (quiet' : (right.text false).head?.any isWord = false) : Keeps phrases (left ++ right) := by
  intro phrase mem before gaps behind split filled areGaps ends begins
  obtain ⟨⟨filled₁, letters₁⟩, filled₂, letters₂⟩ := words_of_mem words mem
  rcases List.append_eq_append_iff.mp split with ⟨more, rfl, rfl⟩ | ⟨more, rfl, rest⟩
  · -- The cut is in front of the gap.
    rw [text_append] at ends quiet'
    have quietMore : (text false more).head?.any isWord = false := by
      by_cases empty : text false more = []
      · rw [empty]
        rfl
      · rwa [List.head?_append_of_ne_nil _ empty] at quiet'
    refine keeps phrase mem (left ++ (piece ++ more)) gaps behind (by simp only [List.append_assoc])
      filled areGaps ?_ begins
    rw [text_append, text_append]
    exact endsWith_of_cut filled₁ letters₁ quiet quietMore ends
  · rcases List.append_eq_append_iff.mp rest with ⟨others, rfl, rfl⟩ | ⟨others, rfl, rfl⟩
    · -- The cut is behind the gap.
      rw [text_append] at begins
      refine keeps phrase mem before gaps (others ++ (piece ++ right))
        (by simp only [List.append_assoc]) filled areGaps ends ?_
      rw [text_append, text_append]
      exact beginsWith_of_cut letters₂ quiet' begins
    · -- The cut is in the gap, so the gap is made of two.
      have apart : more ≠ [] := by
        rintro rfl
        obtain ⟨front, typed, textEq, _, isTyped⟩ := ends
        have last := getLast?_isWord_of_isTyped filled₁ letters₁ isTyped front
        rw [← textEq, ← List.append_nil before, quiet] at last
        cases last
      have apart' : others ≠ [] := by
        rintro rfl
        obtain ⟨typed, rest, textEq, isTyped⟩ := begins
        have head := head?_isWord_of_isTyped filled₂ letters₂ isTyped rest
        rw [← textEq, ← List.nil_append behind, quiet'] at head
        cases head
      have long (respaced : Bool) : text respaced (more ++ others) ≠ [' '] := by
        intro single
        have lengths := congrArg List.length single
        have first := List.length_pos_iff.mpr (mt (text_eq_nil_iff respaced).mp apart)
        have second := List.length_pos_iff.mpr (mt (text_eq_nil_iff respaced).mp apart')
        rw [text_append, List.length_append, List.length_singleton] at lengths
        omega
      exact ⟨fun single => absurd single (long false), fun single => absurd single (long true)⟩

end Cut

end Phrases

end Respacing

end FilmQuery
