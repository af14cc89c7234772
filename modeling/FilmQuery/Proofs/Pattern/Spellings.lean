/-
# The spellings of a pattern

A pattern with nothing open but which characters count as its letters and how far its blanks go has
finitely many spellings: the faces of its texts, with one space for every run of blanks
(`spellings?`).  So whether one text of the pattern can begin another one, with the end of a word
between them, can be told from its spellings (`eq_of_append_eq`).
-/
import FilmQuery.Catalog
import FilmQuery.Proofs.Pattern.Whole

namespace FilmQuery

open Catalog (squeeze)
open Text (isBlank isWord face isWord_face phraseChars sameLetter)

/-- The face of a character is a blank if and only if the character is one. -/
theorem Text.isBlank_face (c : Char) : isBlank (face c) = isBlank c := by
  have forms : (phraseChars.all fun c => (smallForms c).all fun small =>
      small.toNat != 0 && (small.toNat :: sources small.toNat).all fun n =>
        isBlank c == isBlank (Char.ofNat n)) = true := by decide +kernel
  cases blank : isBlank c with
  | true =>
      rw [face_of_isBlank blank]
      decide
  | false =>
      unfold face
      split
      next => decide
      next =>
        rw [blank, if_neg Bool.false_ne_true]
        cases found : phraseChars.find? (sameLetter · c) with
        | none => exact blank
        | some d =>
            have same : sameLetter d c = true := by
              simpa using List.find?_some (p := (sameLetter · c)) found
            have here := holds_of_sameLetter (fun e => isBlank d == isBlank e)
              (List.all_eq_true.mp forms d (List.mem_of_find?_eq_some found)) same
            rw [Option.getD_some, eq_of_beq here, blank]

namespace Catalog

variable {inRun : Bool} {first second : List Char}

/-- What comes behind a text is squeezed as the end of the text says. -/
theorem squeeze_append (inRun : Bool) (first second : List Char) :
    squeeze inRun (first ++ second) =
      squeeze inRun first ++ squeeze (first.getLast?.elim inRun isBlank) second := by
  induction first generalizing inRun with
  | nil => rfl
  | cons c first ih =>
      have last (b : Bool) (same : isBlank c = b) :
          first.getLast?.elim b isBlank = (c :: first).getLast?.elim inRun isBlank := by
        cases first with
        | nil => exact same.symm
        | cons d first => rw [List.getLast?_cons_cons, List.getLast?_cons]; rfl
      rw [List.cons_append, squeeze, squeeze]
      cases blank : isBlank c with
      | true => cases inRun <;> simp [ih, last true blank]
      | false => simp [ih, last false blank]

theorem squeeze_squeeze_append (inRun : Bool) (first second : List Char) :
    squeeze inRun (squeeze inRun first ++ second) = squeeze inRun (first ++ second) := by
  have space : isBlank ' ' = true := by decide
  induction first generalizing inRun with
  | nil => rfl
  | cons c first ih =>
      rw [squeeze, List.cons_append, squeeze]
      cases blank : isBlank c with
      | true => cases inRun <;> simp [squeeze, ih, space]
      | false => simp [squeeze, ih, blank]

theorem squeeze_append_squeeze (inRun : Bool) (first second : List Char) :
    squeeze inRun (first ++ squeeze false second) = squeeze inRun (first ++ second) := by
  have space : isBlank ' ' = true := by decide
  induction first generalizing inRun with
  | nil =>
      rw [List.nil_append, List.nil_append]
      cases second with
      | nil => rfl
      | cons c second =>
          have again (inRun : Bool) :
              squeeze inRun (squeeze inRun second) = squeeze inRun second := by
            simpa using squeeze_squeeze_append inRun second []
          rw [squeeze]
          cases blank : isBlank c with
          | true => cases inRun <;> simp [squeeze, again, space, blank]
          | false => simp [squeeze, again, blank]
  | cons c first ih => simp only [List.cons_append, squeeze, ih]

end Catalog

/-- The faces of a text, with one space for every run of blanks. -/
def skeleton (text : List Char) : List Char := squeeze false (text.map face)

theorem skeleton_append (first second : List Char) :
    skeleton (first ++ second) = squeeze false (skeleton first ++ skeleton second) := by
  rw [skeleton, skeleton, skeleton, Catalog.squeeze_squeeze_append, Catalog.squeeze_append_squeeze,
    List.map_append]

namespace Pattern

/-- Takes one blank. -/
def blank : Pattern := .oneOf [.ofClass .blank]

/-- The spellings of a pattern, if there are only finitely many. -/
def spellings? : Pattern → Option (List (List Char))
  | .char c => if phraseChars.contains c then some [[c]] else none
  | .oneOf members => if .oneOf members = blank then some [[' ']] else none
  | .any => none
  | .seq a b => a.spellings?.bind fun xs => b.spellings?.map fun ys =>
    xs.flatMap fun x => ys.map fun y => squeeze false (x ++ y)
  | .alt a b => a.spellings?.bind fun xs => b.spellings?.map (xs ++ ·)
  | .group _ body => body.spellings?
  | .repeated least most _ body =>
    if least = 0 ∧ most = some 1 then body.spellings?.map ([] :: ·)
    else if least = 1 ∧ body = blank then some [[' ']]
    else none
  | _ => some [[]]

variable {pattern : Pattern} {spellings : List (List Char)} {text : List Char}

theorem skeleton_of_blanks (nonempty : text ≠ []) (blank : ∀ c ∈ text, isBlank c = true) :
    skeleton text = [' '] := by
  obtain ⟨c, others, rfl⟩ := List.exists_cons_of_ne_nil nonempty
  have space : isBlank ' ' = true := by decide
  obtain ⟨here, later⟩ := List.forall_mem_cons.mp blank
  have run : squeeze true (others.map face) = [] := by
    induction others with
    | nil => rfl
    | cons d others ih =>
        obtain ⟨first, rest⟩ := List.forall_mem_cons.mp later
        rw [List.map_cons, Text.face_of_isBlank first, squeeze, if_pos space, if_pos rfl]
        exact ih (List.cons_ne_nil _ _) (List.forall_mem_cons.mpr ⟨here, rest⟩) rest
  rw [skeleton, List.map_cons, Text.face_of_isBlank here, squeeze, if_pos space, run]
  rfl

theorem skeleton_singleton (c : Char) : skeleton [c] = [face c] := by
  cases blank : isBlank c with
  | true =>
      rw [Text.face_of_isBlank blank]
      exact skeleton_of_blanks (List.cons_ne_nil _ _) (by simpa using blank)
  | false => simp [skeleton, squeeze, Text.isBlank_face, blank]

/-- Every text of a pattern has one of its spellings. -/
theorem skeleton_mem_spellings (listed : pattern.spellings? = some spellings)
    (spelled : pattern.Spells true text) : skeleton text ∈ spellings := by
  induction pattern generalizing spellings text with
  | nothing | boundary | atStart | atEnd | absent body ih =>
      obtain rfl : text = [] := spelled
      cases listed
      exact List.mem_singleton_self _
  | char c =>
      obtain ⟨d, rfl, same⟩ := spelled
      change (if phraseChars.contains c then some [[c]] else none) = some spellings at listed
      split at listed
      next phrase =>
        cases listed
        rw [skeleton_singleton, Text.face_eq_of_sameLetter (List.contains_iff_mem.mp phrase) same]
        exact List.mem_singleton_self _
      next => cases listed
  | oneOf members =>
      obtain ⟨d, rfl, has⟩ := spelled
      change (if oneOf members = blank then some [[' ']] else none) = some spellings at listed
      split at listed
      next same =>
        cases same
        cases listed
        rw [skeleton_singleton, Text.face_of_isBlank (by simpa [isIn, CharClass.has] using has)]
        exact List.mem_singleton_self _
      next => cases listed
  | any => cases listed
  | seq a b first second =>
      obtain ⟨front, back, ofA, ofB, rfl⟩ := spelled
      obtain ⟨xs, listedA, rest⟩ := Option.bind_eq_some_iff.mp listed
      obtain ⟨ys, listedB, rfl⟩ := Option.map_eq_some_iff.mp rest
      rw [skeleton_append]
      exact List.mem_flatMap.mpr ⟨_, first listedA ofA, List.mem_map_of_mem (second listedB ofB)⟩
  | alt a b first second =>
      obtain ⟨xs, listedA, rest⟩ := Option.bind_eq_some_iff.mp listed
      obtain ⟨ys, listedB, rfl⟩ := Option.map_eq_some_iff.mp rest
      exact List.mem_append.mpr (spelled.imp (first listedA) (second listedB))
  | group index body ih => exact ih listed spelled
  | repeated least most eager body ih =>
      obtain ⟨parts, ofBody, enough, bounded, rfl⟩ := spelled
      change (if least = 0 ∧ most = some 1 then body.spellings?.map ([] :: ·)
        else if least = 1 ∧ body = blank then some [[' ']]
        else none) = some spellings at listed
      split at listed
      next once =>
        obtain ⟨rfl, rfl⟩ := once
        obtain ⟨others, listedBody, rfl⟩ := Option.map_eq_some_iff.mp listed
        have few := bounded 1 rfl
        rcases parts with _ | ⟨part, _ | ⟨_, _⟩⟩
        · exact List.mem_cons_self
        · rw [List.flatten_singleton]
          exact List.mem_cons_of_mem _ (ih listedBody (ofBody part List.mem_cons_self))
        · simp at few
      next =>
        split at listed
        next run =>
          obtain ⟨rfl, rfl⟩ := run
          cases listed
          have single : ∀ part ∈ parts, ∃ c, part = [c] ∧ isBlank c = true := by
            intro part mem
            obtain ⟨c, rfl, has⟩ := ofBody part mem
            exact ⟨c, rfl, by simpa [isIn, CharClass.has] using has⟩
          rw [skeleton_of_blanks]
          · exact List.mem_singleton_self _
          · obtain ⟨part, others, rfl⟩ :=
              List.exists_cons_of_ne_nil (List.ne_nil_of_length_pos enough)
            obtain ⟨c, rfl, _⟩ := single _ List.mem_cons_self
            simp
          · intro c mem
            obtain ⟨part, inParts, inPart⟩ := List.mem_flatten.mp mem
            obtain ⟨d, rfl, blank⟩ := single part inParts
            rwa [List.mem_singleton.mp inPart]
        next => cases listed

/-- Whether no text of a pattern begins another one of its texts and ends there with a word. -/
def tellsWords (pattern : Pattern) : Bool :=
  pattern.spellings?.any fun spellings => spellings.all fun x => spellings.all fun y =>
    !x.isPrefixOf y || (y.drop x.length).head?.all isWord

variable {first second : List Char}

theorem not_spells_append (tells : pattern.tellsWords = true)
    (closes : text.getLast?.any isWord = true) (spelled : pattern.Spells true text) {c : Char}
    (wordless : isWord c = false) (more : List Char) :
    ¬ pattern.Spells true (text ++ c :: more) := by
  intro longer
  obtain ⟨spellings, listed, apart⟩ := (Option.any_eq_true _ _).mp tells
  have within := List.all_eq_true.mp (List.all_eq_true.mp apart _
    (skeleton_mem_spellings listed spelled)) _ (skeleton_mem_spellings listed longer)
  obtain ⟨d, last, word⟩ := (Option.any_eq_true _ _).mp closes
  have noBlank : isBlank (face d) = false := by
    rw [Text.isBlank_face]
    exact Text.isBlank_eq_false_of_isWord word
  have inWord : (text.map face).getLast?.elim false isBlank = false := by
    rw [List.getLast?_map, last]
    exact noBlank
  obtain ⟨e, rest, split, apartE⟩ : ∃ e rest,
      squeeze false ((c :: more).map face) = e :: rest ∧ isWord e = false := by
    rw [List.map_cons, squeeze]
    split
    · exact ⟨_, _, rfl, by decide +kernel⟩
    · exact ⟨_, _, rfl, by rwa [isWord_face]⟩
  have longerEq : skeleton (text ++ c :: more) = skeleton text ++ e :: rest := by
    rw [skeleton, List.map_append, Catalog.squeeze_append, inWord, split, skeleton]
  rw [longerEq, List.drop_left, List.head?_cons, Option.all_some, apartE, Bool.or_false,
    Bool.not_eq_true', ← Bool.not_eq_true, List.isPrefixOf_iff_prefix] at within
  exact within (List.prefix_append _ _)

/-- Two texts of a pattern at one place are the same if both end with a word there. -/
theorem eq_of_append_eq (tells : pattern.tellsWords = true) (ofFirst : pattern.Spells true first)
    (ofSecond : pattern.Spells true second) (closes : first.getLast?.any isWord = true)
    (closes' : second.getLast?.any isWord = true) {behind behind' : List Char}
    (same : first ++ behind = second ++ behind') (ends : behind.head?.any isWord = false)
    (ends' : behind'.head?.any isWord = false) : first = second := by
  rcases List.append_eq_append_iff.mp same with ⟨more, rfl, split⟩ | ⟨more, rfl, split⟩
  · cases more with
    | nil => exact (List.append_nil _).symm
    | cons c more =>
        rw [split, List.cons_append, List.head?_cons, Option.any_some] at ends
        exact absurd ofSecond (not_spells_append tells closes ofFirst ends more)
  · cases more with
    | nil => exact List.append_nil _
    | cons c more =>
        rw [split, List.cons_append, List.head?_cons, Option.any_some] at ends'
        exact absurd ofFirst (not_spells_append tells closes' ofSecond ends' more)

end Pattern

end FilmQuery
