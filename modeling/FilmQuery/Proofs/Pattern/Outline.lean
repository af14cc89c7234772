/-
# The outline of a pattern

Much can be said of the texts that a pattern spells from the faces of their characters: which can
come first and last, which can stand side by side, and how often one can come at all.  All of it is
computed from the pattern (`outline`, `most`).  If a pattern cannot be met with the neighbours that
another one has, it is foreign to it: it spells no part of any text of the other one
(`not_spells_of_isForeignTo`).  Neighbours are all that is compared, so nothing follows if it is
not.
-/
import FilmQuery.Proofs.Pattern.Language
import FilmQuery.Proofs.Text.Face
import Mathlib.Data.List.Chain

namespace FilmQuery

open Text

/-- What the texts of a pattern look like: whether one of them is empty, the faces of the first and
the last character of one text, and the faces that stand side by side. -/
structure Outline where
  mayBeEmpty : Bool
  ends : List (Char × Char)
  joints : List (Char × Char)

/-- A text whose neighbours all have faces that may meet. -/
def Meets (meet : Char → Char → Bool) (text : List Char) : Prop :=
  text.IsChain fun c d => meet (face c) (face d) = true

theorem Meets.append {meet : Char → Char → Bool} {first second : List Char}
    (meets : Meets meet (first ++ second)) :
    Meets meet first ∧ Meets meet second ∧
      ∀ c ∈ first.getLast?, ∀ d ∈ second.head?, meet (face c) (face d) = true :=
  List.isChain_append.mp meets

/-- If all faces may meet, there is nothing to be said against any neighbours. -/
theorem meets_all (text : List Char) : Meets (fun _ _ => true) text := by
  induction text with
  | nil => exact .nil
  | cons c rest ih => exact List.isChain_cons.mpr ⟨fun _ _ => rfl, ih⟩

namespace Outline

/-- A text looks like an outline. -/
structure Fits (o : Outline) (text : List Char) : Prop where
  empty : text = [] → o.mayBeEmpty = true
  ends : ∀ c ∈ text.head?, ∀ d ∈ text.getLast?, (face c, face d) ∈ o.ends
  joints : text.IsChain fun c d => (face c, face d) ∈ o.joints

/-- The outline of the empty text. -/
def ofNothing : Outline := ⟨true, [], []⟩

/-- The outline of a single character. -/
def ofFace (c : Char) : Outline := ⟨false, [(c, c)], []⟩

/-- The outline of texts that look in one of two ways. -/
def either (a b : Outline) : Outline :=
  ⟨a.mayBeEmpty || b.mayBeEmpty, (a.ends ++ b.ends).eraseDups, (a.joints ++ b.joints).eraseDups⟩

/-- The ends of two texts that may stand one behind the other. -/
def pairings (meet : Char → Char → Bool) (first second : List (Char × Char)) :
    List ((Char × Char) × (Char × Char)) :=
  first.flatMap fun x => (second.filter fun y => meet x.2 y.1).map fun y => (x, y)

/-- The ends of the two texts together. -/
def outer (pair : (Char × Char) × (Char × Char)) : Char × Char := (pair.1.1, pair.2.2)

/-- The ends at which the two texts meet. -/
def inner (pair : (Char × Char) × (Char × Char)) : Char × Char := (pair.1.2, pair.2.1)

/-- The outline of a text behind another, where the two may meet. -/
def followedBy (meet : Char → Char → Bool) (a b : Outline) : Outline where
  mayBeEmpty := a.mayBeEmpty && b.mayBeEmpty
  ends := ((if b.mayBeEmpty then a.ends else []) ++ (if a.mayBeEmpty then b.ends else []) ++
    (pairings meet a.ends b.ends).map outer).eraseDups
  joints := (a.joints ++ b.joints ++ (pairings meet a.ends b.ends).map inner).eraseDups

/-- The outline of any number of texts one behind the other. -/
def many (meet : Char → Char → Bool) (o : Outline) : Outline where
  mayBeEmpty := true
  ends := (o.ends.flatMap fun x => o.ends.map fun y => outer (x, y)).eraseDups
  joints := (o.joints ++ (pairings meet o.ends o.ends).map inner).eraseDups

variable {meet : Char → Char → Bool} {o a b : Outline} {text first second : List Char}
  {c d : Char}

theorem mem_map_outer_pairings {xs ys : List (Char × Char)} :
    (c, d) ∈ (pairings meet xs ys).map outer ↔
      ∃ x y, (c, x) ∈ xs ∧ (y, d) ∈ ys ∧ meet x y = true := by
  simp [pairings, outer]

theorem mem_map_inner_pairings {xs ys : List (Char × Char)} :
    (c, d) ∈ (pairings meet xs ys).map inner ↔
      (∃ x, (x, c) ∈ xs) ∧ (∃ y, (d, y) ∈ ys) ∧ meet c d = true := by
  simp [pairings, inner]

theorem mem_ends_followedBy :
    (c, d) ∈ (a.followedBy meet b).ends ↔
      b.mayBeEmpty = true ∧ (c, d) ∈ a.ends ∨ a.mayBeEmpty = true ∧ (c, d) ∈ b.ends ∨
        ∃ x y, (c, x) ∈ a.ends ∧ (y, d) ∈ b.ends ∧ meet x y = true := by
  rw [followedBy, List.mem_eraseDups, List.mem_append, List.mem_append, mem_map_outer_pairings,
    or_assoc]
  cases a.mayBeEmpty <;> cases b.mayBeEmpty <;> simp

theorem mem_joints_followedBy :
    (c, d) ∈ (a.followedBy meet b).joints ↔
      (c, d) ∈ a.joints ∨ (c, d) ∈ b.joints ∨
        (∃ x, (x, c) ∈ a.ends) ∧ (∃ y, (d, y) ∈ b.ends) ∧ meet c d = true := by
  rw [followedBy, List.mem_eraseDups, List.mem_append, List.mem_append, mem_map_inner_pairings,
    or_assoc]

theorem mem_ends_many :
    (c, d) ∈ (o.many meet).ends ↔ (∃ x, (c, x) ∈ o.ends) ∧ ∃ y, (y, d) ∈ o.ends := by
  simp [many, outer]

theorem mem_joints_many :
    (c, d) ∈ (o.many meet).joints ↔
      (c, d) ∈ o.joints ∨ (∃ x, (x, c) ∈ o.ends) ∧ (∃ y, (d, y) ∈ o.ends) ∧ meet c d = true := by
  rw [many, List.mem_eraseDups, List.mem_append, mem_map_inner_pairings]

/-- An outline with more in it fits as well. -/
theorem Fits.mono (fits : a.Fits text) (empty : a.mayBeEmpty = true → b.mayBeEmpty = true)
    (ends : ∀ {c d}, (c, d) ∈ a.ends → (c, d) ∈ b.ends)
    (joints : ∀ {c d}, (c, d) ∈ a.joints → (c, d) ∈ b.joints) : b.Fits text where
  empty none := empty (fits.empty none)
  ends c head d last := ends (fits.ends c head d last)
  joints := fits.joints.imp fun _ _ joint => joints joint

theorem fits_nothing : ofNothing.Fits [] :=
  ⟨fun _ => rfl, by simp, .nil⟩

theorem fits_singleton (c : Char) : (ofFace (face c)).Fits [c] :=
  ⟨by simp, by simp [ofFace], .singleton c⟩

theorem Fits.left (fits : a.Fits text) : (a.either b).Fits text := by
  apply fits.mono <;> simp +contextual [either]

theorem Fits.right (fits : b.Fits text) : (a.either b).Fits text := by
  apply fits.mono <;> simp +contextual [either]

theorem exists_head_of_getLast? {c : Char} (last : c ∈ text.getLast?) : ∃ d, d ∈ text.head? := by
  cases text with
  | nil => cases last
  | cons d rest => exact ⟨d, rfl⟩

theorem exists_getLast_of_head? {c : Char} (head : c ∈ text.head?) : ∃ d, d ∈ text.getLast? := by
  cases text with
  | nil => cases head
  | cons d rest => exact ⟨_, List.getLast?_eq_getLast_of_ne_nil (List.cons_ne_nil _ _)⟩

theorem Fits.append (ofFirst : a.Fits first) (ofSecond : b.Fits second)
    (meets : Meets meet (first ++ second)) : (a.followedBy meet b).Fits (first ++ second) := by
  obtain ⟨_, _, across⟩ := meets.append
  constructor
  · intro none
    obtain ⟨noFirst, noSecond⟩ := List.append_eq_nil_iff.mp none
    simp [followedBy, ofFirst.empty noFirst, ofSecond.empty noSecond]
  · intro c head d last
    apply mem_ends_followedBy.mpr
    cases secondEq : second.head? with
    | none =>
        rw [List.head?_eq_none_iff] at secondEq
        subst secondEq
        rw [List.append_nil] at head last
        exact .inl ⟨ofSecond.empty rfl, ofFirst.ends c head d last⟩
    | some y =>
        have lastSecond : d ∈ second.getLast? := by
          have nonempty : second ≠ [] := by
            rintro rfl
            cases secondEq
          rwa [List.getLast?_append_of_ne_nil _ nonempty] at last
        cases firstEq : first.getLast? with
        | none =>
            rw [List.getLast?_eq_none_iff] at firstEq
            subst firstEq
            exact .inr (.inl ⟨ofFirst.empty rfl, ofSecond.ends c head d lastSecond⟩)
        | some x =>
            obtain ⟨c', headFirst⟩ := exists_head_of_getLast? firstEq
            have same : c' = c := by
              rw [List.head?_append, headFirst] at head
              exact Option.some.inj head
            rw [same] at headFirst
            exact .inr (.inr ⟨face x, face y, ofFirst.ends c headFirst x firstEq,
              ofSecond.ends y secondEq d lastSecond, across x firstEq y secondEq⟩)
  · refine List.isChain_append.mpr ⟨?_, ?_, ?_⟩
    · exact ofFirst.joints.imp fun _ _ joint => mem_joints_followedBy.mpr (.inl joint)
    · exact ofSecond.joints.imp fun _ _ joint => mem_joints_followedBy.mpr (.inr (.inl joint))
    · intro c last d head
      obtain ⟨x, headFirst⟩ := exists_head_of_getLast? last
      obtain ⟨y, lastSecond⟩ := exists_getLast_of_head? head
      exact mem_joints_followedBy.mpr (.inr (.inr ⟨⟨face x, ofFirst.ends x headFirst c last⟩,
        ⟨face y, ofSecond.ends d head y lastSecond⟩, across c last d head⟩))

theorem Fits.flatten {texts : List (List Char)} (fits : ∀ part ∈ texts, o.Fits part)
    (meets : Meets meet texts.flatten) : (o.many meet).Fits texts.flatten := by
  induction texts with
  | nil =>
      apply fits_nothing.mono <;> simp [ofNothing, many]
  | cons part rest ih =>
      obtain ⟨here, later⟩ := List.forall_mem_cons.mp fits
      rw [List.flatten_cons] at meets ⊢
      apply (here.append (ih later meets.append.2.1) meets).mono
      · exact fun _ => rfl
      · intro c d mem
        apply mem_ends_many.mpr
        rcases mem_ends_followedBy.mp mem with ⟨_, ofPart⟩ | ⟨_, ofRest⟩ | ⟨x, y, ofPart, ofRest, _⟩
        · exact ⟨⟨d, ofPart⟩, ⟨c, ofPart⟩⟩
        · exact mem_ends_many.mp ofRest
        · exact ⟨⟨x, ofPart⟩, (mem_ends_many.mp ofRest).2⟩
      · intro c d mem
        apply mem_joints_many.mpr
        rcases mem_joints_followedBy.mp mem with ofPart | ofRest | ⟨ofPart, ⟨y, ofRest⟩, met⟩
        · exact .inl ofPart
        · exact mem_joints_many.mp ofRest
        · exact .inr ⟨ofPart, (mem_ends_many.mp ofRest).1, met⟩

end Outline

namespace Pattern

/-- Whether a pattern has an outline: what it takes are characters of phrases, digits and blanks. -/
def hasOutline : Pattern → Bool
  | .char c => phraseChars.contains c
  | .oneOf [.ofClass .digit] | .oneOf [.ofClass .blank] => true
  | .oneOf _ | .any => false
  | .seq a b | .alt a b => a.hasOutline && b.hasOutline
  | .group _ body | .repeated _ _ _ body => body.hasOutline
  | _ => true

/-- The outline of the texts that a pattern spells and in which only such faces stand side by side
as may meet. -/
def outline (meet : Char → Char → Bool) : Pattern → Outline
  | .char c => .ofFace c
  | .oneOf [.ofClass .digit] => .ofFace '0'
  | .oneOf [.ofClass .blank] => .ofFace ' '
  | .seq a b => (a.outline meet).followedBy meet (b.outline meet)
  | .alt a b => (a.outline meet).either (b.outline meet)
  | .group _ body => body.outline meet
  | .repeated least _ _ body =>
    let many := (body.outline meet).many meet
    if least = 0 then many else { many with mayBeEmpty := (body.outline meet).mayBeEmpty }
  | _ => .ofNothing

theorem members_of_hasOutline {members : List Member}
    (drawn : (oneOf members).hasOutline = true) :
    members = [.ofClass .digit] ∨ members = [.ofClass .blank] := by
  rcases members with _ | ⟨first, _ | ⟨second, rest⟩⟩
  · exact absurd drawn Bool.false_ne_true
  · cases first with
    | ofClass c =>
        cases c with
        | digit => exact .inl rfl
        | blank => exact .inr rfl
        | _ => exact absurd drawn Bool.false_ne_true
    | _ => exact absurd drawn Bool.false_ne_true
  · rcases first with _ | (_ | _ | _ | _) <;> exact absurd drawn Bool.false_ne_true

/-- A pattern spells only texts that look like its outline. -/
theorem fits_of_spells (meet : Char → Char → Bool) {pattern : Pattern}
    (drawn : pattern.hasOutline = true) {text : List Char} (meets : Meets meet text)
    (spelled : pattern.Spells true text) : (pattern.outline meet).Fits text := by
  induction pattern generalizing text with
  | nothing | boundary | atStart | atEnd | absent body ih =>
      obtain rfl : text = [] := spelled
      exact Outline.fits_nothing
  | char c =>
      obtain ⟨d, rfl, same⟩ := spelled
      rw [← face_eq_of_sameLetter (List.contains_iff_mem.mp drawn) same]
      exact Outline.fits_singleton d
  | oneOf members =>
      obtain ⟨d, rfl, has⟩ := spelled
      rcases members_of_hasOutline drawn with rfl | rfl
      · have digit : isDigit d = true := by simpa [isIn, CharClass.has] using has
        have fits := Outline.fits_singleton d
        rwa [face_of_isDigit digit] at fits
      · have blank : isBlank d = true := by simpa [isIn, CharClass.has] using has
        have fits := Outline.fits_singleton d
        rwa [face_of_isBlank blank] at fits
  | any => exact absurd drawn Bool.false_ne_true
  | seq a b first second =>
      obtain ⟨ofA, ofB⟩ := Bool.and_eq_true_iff.mp drawn
      obtain ⟨before, behind, spelledA, spelledB, rfl⟩ := spelled
      exact (first ofA meets.append.1 spelledA).append (second ofB meets.append.2.1 spelledB) meets
  | alt a b first second =>
      obtain ⟨ofA, ofB⟩ := Bool.and_eq_true_iff.mp drawn
      rcases spelled with spelledA | spelledB
      · exact (first ofA meets spelledA).left
      · exact (second ofB meets spelledB).right
  | group index body ih => exact ih drawn meets spelled
  | repeated least most eager body ih =>
      obtain ⟨texts, spelledParts, enough, _, rfl⟩ := spelled
      have parts : ∀ part ∈ texts, (body.outline meet).Fits part := by
        intro part mem
        obtain ⟨before, behind, split⟩ := List.append_of_mem mem
        rw [split, List.flatten_append, List.flatten_cons] at meets
        exact ih drawn meets.append.2.1.append.1 (spelledParts part mem)
      have many := Outline.Fits.flatten parts meets
      show (if least = 0 then _ else _ : Outline).Fits texts.flatten
      split
      · exact many
      · refine ⟨fun none => ?_, many.ends, many.joints⟩
        cases texts with
        | nil =>
            simp only [List.length_nil] at enough
            omega
        | cons part rest =>
            rw [List.flatten_cons, List.append_eq_nil_iff] at none
            exact (parts part List.mem_cons_self).empty none.1

/-- Whether no text of a pattern can be met where only such faces stand side by side as in the texts
of another pattern. -/
def isForeignTo (pattern other : Pattern) : Bool :=
  let part := pattern.outline fun c d => (other.outline fun _ _ => true).joints.contains (c, d)
  !part.mayBeEmpty && part.ends.isEmpty

/-- A pattern that is foreign to another one spells no part of any text of the other one. -/
theorem not_spells_of_isForeignTo {pattern other : Pattern} (drawn : pattern.hasOutline = true)
    (drawnOther : other.hasOutline = true) (foreign : pattern.isForeignTo other = true)
    {text part : List Char} (spelled : other.Spells true text) (isPart : part <:+: text) :
    ¬ pattern.Spells true part := by
  intro spelledPart
  have whole : (other.outline fun _ _ => true).Fits text :=
    fits_of_spells _ drawnOther (meets_all text) spelled
  have jointsOfPart := List.IsChain.infix whole.joints isPart
  have fits := fits_of_spells
    (fun c d => (other.outline fun _ _ => true).joints.contains (c, d)) drawn
    (jointsOfPart.imp fun _ _ joint => List.contains_iff_mem.mpr joint) spelledPart
  simp only [isForeignTo, Bool.and_eq_true, Bool.not_eq_true', List.isEmpty_iff] at foreign
  cases part with
  | nil =>
      have empty := fits.empty rfl
      rw [foreign.1] at empty
      exact Bool.false_ne_true empty
  | cons c rest =>
      have ends := fits.ends c rfl _ (List.getLast?_eq_getLast_of_ne_nil (List.cons_ne_nil _ _))
      rw [foreign.2] at ends
      cases ends

/-- How many characters with a face are in a text of a pattern at most, if that is bounded. -/
def most (c : Char) : Pattern → Option Nat
  | .char d => some (if d = c then 1 else 0)
  | .oneOf [.ofClass .digit] => some (if '0' = c then 1 else 0)
  | .oneOf [.ofClass .blank] => some (if ' ' = c then 1 else 0)
  | .seq a b => (a.most c).bind fun m => (b.most c).map (m + ·)
  | .alt a b => (a.most c).bind fun m => (b.most c).map (max m)
  | .group _ body => body.most c
  | .repeated _ _ _ body => (body.most c).filter (· = 0)
  | _ => some 0

theorem countP_face_singleton (c d : Char) :
    [d].countP (face · == c) = if face d = c then 1 else 0 := by
  simp [List.countP_cons]

theorem countP_flatten_eq_zero {test : Char → Bool} {texts : List (List Char)}
    (none : ∀ part ∈ texts, part.countP test = 0) : texts.flatten.countP test = 0 := by
  induction texts with
  | nil => rfl
  | cons part rest ih =>
      obtain ⟨here, later⟩ := List.forall_mem_cons.mp none
      rw [List.flatten_cons, List.countP_append, here, ih later]

/-- No text of a pattern has more characters with a face than there can be. -/
theorem countP_face_le {pattern : Pattern} (drawn : pattern.hasOutline = true) {c : Char} {n : Nat}
    (bound : pattern.most c = some n) {text : List Char} (spelled : pattern.Spells true text) :
    text.countP (face · == c) ≤ n := by
  induction pattern generalizing n text with
  | nothing | boundary | atStart | atEnd | absent body ih =>
      obtain rfl : text = [] := spelled
      exact Nat.zero_le n
  | char d =>
      obtain ⟨e, rfl, same⟩ := spelled
      cases bound
      rw [countP_face_singleton, face_eq_of_sameLetter (List.contains_iff_mem.mp drawn) same]
  | oneOf members =>
      obtain ⟨d, rfl, has⟩ := spelled
      rw [countP_face_singleton]
      rcases members_of_hasOutline drawn with rfl | rfl
      · cases bound
        rw [face_of_isDigit (by simpa [isIn, CharClass.has] using has)]
      · cases bound
        rw [face_of_isBlank (by simpa [isIn, CharClass.has] using has)]
  | any => exact absurd drawn Bool.false_ne_true
  | seq a b first second =>
      obtain ⟨ofA, ofB⟩ := Bool.and_eq_true_iff.mp drawn
      obtain ⟨m, boundA, rest⟩ := Option.bind_eq_some_iff.mp bound
      obtain ⟨k, boundB, rfl⟩ := Option.map_eq_some_iff.mp rest
      obtain ⟨before, behind, spelledA, spelledB, rfl⟩ := spelled
      rw [List.countP_append]
      exact Nat.add_le_add (first ofA boundA spelledA) (second ofB boundB spelledB)
  | alt a b first second =>
      obtain ⟨ofA, ofB⟩ := Bool.and_eq_true_iff.mp drawn
      obtain ⟨m, boundA, rest⟩ := Option.bind_eq_some_iff.mp bound
      obtain ⟨k, boundB, rfl⟩ := Option.map_eq_some_iff.mp rest
      rcases spelled with spelledA | spelledB
      · exact (first ofA boundA spelledA).trans (Nat.le_max_left m k)
      · exact (second ofB boundB spelledB).trans (Nat.le_max_right m k)
  | group index body ih => exact ih drawn bound spelled
  | repeated least most eager body ih =>
      obtain ⟨boundBody, none⟩ := Option.filter_eq_some_iff.mp bound
      obtain rfl : n = 0 := of_decide_eq_true none
      obtain ⟨texts, spelledParts, _, _, rfl⟩ := spelled
      have parts : ∀ part ∈ texts, part.countP (face · == c) = 0 := fun part mem =>
        Nat.le_zero.mp (ih drawn boundBody (spelledParts part mem))
      exact (countP_flatten_eq_zero parts).le

end Pattern

end FilmQuery
