/-
# Occurrences of whole words

Phrases begin with a word, and most of them end with one.  Where the boundaries of words are looked
for on both sides, an occurrence has no word going on at either end (`isWhole_of_mem`).  A phrase
that ends with a sign can only ask that no word follows, or it asks for nothing.  In all these cases
the phrase can be cut out of its text and is still found (`occurrences_alone`).
-/
import FilmQuery.Proofs.Pattern.Cutout
import FilmQuery.Proofs.Pattern.Outline

namespace FilmQuery

open Text (isWord face isWord_face)

/-- An occurrence begins and ends with a word, and no word goes on in front of it or behind it. -/
structure Occurrence.IsWhole (m : Occurrence) (text : List Char) : Prop where
  opens : m.text.head?.any isWord = true
  closes : m.text.getLast?.any isWord = true
  before : (text.take m.start).getLast?.any isWord = false
  behind : (text.drop m.stop).head?.any isWord = false

namespace Pattern

/-- The outline of all texts of a pattern. -/
def profile (pattern : Pattern) : Outline := pattern.outline fun _ _ => true

/-- Whether all texts of a pattern begin with a word. -/
def opensWord (pattern : Pattern) : Bool :=
  pattern.hasOutline && !pattern.profile.mayBeEmpty && pattern.profile.ends.all (isWord ·.1)

/-- Whether all texts of a pattern end with a word. -/
def closesWord (pattern : Pattern) : Bool :=
  pattern.hasOutline && !pattern.profile.mayBeEmpty && pattern.profile.ends.all (isWord ·.2)

/-- What a pattern asks for in the end. -/
def tip : Pattern → Pattern
  | .seq _ second => second.tip
  | other => other

/-- Whether no word can follow where a pattern has been met. -/
def sealsWord (pattern : Pattern) : Bool :=
  match pattern.tip with
  | .boundary => pattern.closesWord
  | .absent (.oneOf [.ofClass .word]) => true
  | _ => false

/-- Whether a pattern begins with the boundary of a word, and ends so that its phrases can be told
without what follows them. -/
def standsAlone : Pattern → Bool
  | .seq .boundary rest =>
    (seq .boundary rest).opensWord && rest.allowsCut false &&
      (rest.allowsCut true || (seq .boundary rest).sealsWord)
  | _ => false

/-- Whether a pattern asks for the boundaries of words on both sides of its texts. -/
def asksForWords : Pattern → Bool
  | .seq .boundary rest =>
    (seq .boundary rest).opensWord && (seq .boundary rest).closesWord && rest.tip == .boundary
  | _ => false

variable {pattern rest : Pattern} {text : List Char} {m : Occurrence} {p q : Place}

theorem fits_profile (drawn : pattern.hasOutline = true) (spelled : pattern.Spells true text) :
    pattern.profile.Fits text :=
  fits_of_spells _ drawn (meets_all text) spelled

theorem not_spells_nil (drawn : pattern.hasOutline = true)
    (solid : pattern.profile.mayBeEmpty = false) : ¬ pattern.Spells true [] := by
  intro spelled
  have mayBeEmpty := (fits_profile drawn spelled).empty rfl
  rw [solid] at mayBeEmpty
  exact Bool.false_ne_true mayBeEmpty

/-- The ends of a text that a pattern spells are ends of its outline. -/
theorem exists_ends_of_spells (drawn : pattern.hasOutline = true)
    (solid : pattern.profile.mayBeEmpty = false) (spelled : pattern.Spells true text) :
    ∃ c d, text.head? = some c ∧ text.getLast? = some d ∧
      (face c, face d) ∈ pattern.profile.ends := by
  cases text with
  | nil => exact absurd spelled (not_spells_nil drawn solid)
  | cons c others =>
      have last := List.getLast?_eq_getLast_of_ne_nil (List.cons_ne_nil c others)
      exact ⟨c, _, rfl, last, (fits_profile drawn spelled).ends c rfl _ last⟩

theorem head?_isWord_of_opensWord (opens : pattern.opensWord = true)
    (spelled : pattern.Spells true text) : text.head?.any isWord = true := by
  simp only [opensWord, Bool.and_eq_true, Bool.not_eq_true', List.all_eq_true] at opens
  obtain ⟨⟨drawn, solid⟩, words⟩ := opens
  obtain ⟨c, d, head, _, atEnds⟩ := exists_ends_of_spells drawn solid spelled
  rw [head, Option.any_some, ← isWord_face]
  exact words _ atEnds

theorem getLast?_isWord_of_closesWord (closes : pattern.closesWord = true)
    (spelled : pattern.Spells true text) : text.getLast?.any isWord = true := by
  simp only [closesWord, Bool.and_eq_true, Bool.not_eq_true', List.all_eq_true] at closes
  obtain ⟨⟨drawn, solid⟩, words⟩ := closes
  obtain ⟨c, d, _, last, atEnds⟩ := exists_ends_of_spells drawn solid spelled
  rw [last, Option.any_some, ← isWord_face]
  exact words _ atEnds

theorem solid_of_opensWord (opens : pattern.opensWord = true) : ¬ pattern.Spells true [] := by
  intro spelled
  have head := head?_isWord_of_opensWord opens spelled
  cases head

theorem solid_of_standsAlone (alone : pattern.standsAlone = true) : ¬ pattern.Spells true [] := by
  unfold standsAlone at alone
  split at alone
  next rest =>
    simp only [Bool.and_eq_true] at alone
    exact solid_of_opensWord alone.1.1
  next => cases alone

/-- A way of a pattern ends with a way of what the pattern asks for in the end. -/
theorem exists_mem_ways_tip {blind : Bool} (way : q ∈ pattern.ways blind p) :
    ∃ r, q ∈ pattern.tip.ways blind r := by
  induction pattern generalizing p with
  | seq a b first second =>
      obtain ⟨r, _, toQ⟩ := List.mem_flatMap.mp way
      exact second toQ
  | _ => exact ⟨p, way⟩

theorem isBoundary_of_mem_ways {blind : Bool} (way : q ∈ boundary.ways blind p) :
    q.isBoundary = true := by
  by_cases atBoundary : p.isBoundary = true
  · rw [ways, if_pos atBoundary] at way
    rw [List.mem_singleton.mp way]
    exact atBoundary
  · rw [ways, if_neg atBoundary] at way
    cases way

theorem isWord_eq_false_of_mem_ways_absent {blind : Bool}
    (way : q ∈ (absent (.oneOf [.ofClass .word])).ways blind p) :
    q.rest.head?.any isWord = false := by
  rw [ways] at way
  split at way
  next nowhere =>
    rw [List.mem_singleton.mp way]
    cases restEq : p.rest with
    | nil => rfl
    | cons c others =>
        by_contra word
        have isWord : isWord c = true := by simpa using word
        simp [ways, Place.take, restEq, isIn, CharClass.has, isWord] at nowhere
  next => cases way

/-- An occurrence is a way behind its last character. -/
theorem exists_way_behind (mem : m ∈ occurrences true pattern text) :
    ∃ q ∈ pattern.ways true (.inText text m.start),
      q.rest = text.drop m.stop ∧
        (m.text.getLast?.any isWord = true → q.previous.any isWord = true) := by
  obtain ⟨q, way, _, between⟩ := exists_way_of_mem_occurrences mem
  obtain ⟨taken, _, takes⟩ := exists_spells_of_mem_ways way
  have lies := (occurrences_inOrder true pattern text).liesIn m mem
  have textEq : m.text = taken := by
    rw [takes.text_eq, between]
    rfl
  refine ⟨q, way, ?_, ?_⟩
  · have rest := takes.rest
    rw [← textEq] at rest
    exact (List.append_cancel_left (lies.drop_start.symm.trans rest)).symm
  · intro word
    rw [takes.previous, ← textEq]
    cases last : m.text.getLast? with
    | none =>
        rw [last] at word
        cases word
    | some c => rwa [last] at word

/-- No word follows on an occurrence of a pattern that no word can follow. -/
theorem isWord_behind_eq_false (seals : pattern.sealsWord = true)
    (mem : m ∈ occurrences true pattern text) : (text.drop m.stop).head?.any isWord = false := by
  obtain ⟨q, way, behind, closed⟩ := exists_way_behind mem
  obtain ⟨r, last⟩ := exists_mem_ways_tip way
  rw [← behind]
  unfold sealsWord at seals
  split at seals
  next atTip =>
    rw [atTip] at last
    have word := closed (getLast?_isWord_of_closesWord seals (spells_of_mem_occurrences mem).1)
    have boundary := isBoundary_of_mem_ways last
    rw [Place.isBoundary, word] at boundary
    simpa using boundary
  next atTip =>
    rw [atTip] at last
    exact isWord_eq_false_of_mem_ways_absent last
  next => cases seals

/-- What is found of a pattern that stands alone is still found when it is cut out of its text, and
nothing else is. -/
theorem occurrences_alone (alone : pattern.standsAlone = true)
    (mem : m ∈ occurrences true pattern text) :
    occurrences true pattern m.text = [{ m with start := 0, stop := m.text.length }] := by
  unfold standsAlone at alone
  split at alone
  next rest =>
    obtain ⟨both, further⟩ := Bool.and_eq_true_iff.mp alone
    obtain ⟨opens, quiet⟩ := Bool.and_eq_true_iff.mp both
    have word := head?_isWord_of_opensWord opens (spells_of_mem_occurrences mem).1
    apply occurrences_cutout (solid_of_opensWord opens) mem word
    cases follows : (text.drop m.stop).head?.any isWord with
    | false => exact quiet
    | true =>
        rcases Bool.or_eq_true_iff.mp further with loud | seals
        · exact loud
        · rw [isWord_behind_eq_false seals mem] at follows
          cases follows
  next => cases alone

/-- A pattern that asks for words on both sides occurs where no word goes on at either end. -/
theorem isWhole_of_mem (asks : pattern.asksForWords = true)
    (mem : m ∈ occurrences true pattern text) : m.IsWhole text := by
  unfold asksForWords at asks
  split at asks
  next rest =>
    simp only [Bool.and_eq_true, beq_iff_eq] at asks
    obtain ⟨⟨opens, closes⟩, atTip⟩ := asks
    have spelled := (spells_of_mem_occurrences mem).1
    have word := head?_isWord_of_opensWord opens spelled
    have seals : (seq .boundary rest).sealsWord = true := by
      simp only [sealsWord, tip, atTip, closes]
    exact ⟨word, getLast?_isWord_of_closesWord closes spelled, isWord_before_eq_false mem word,
      isWord_behind_eq_false seals mem⟩
  next => cases asks

end Pattern

end FilmQuery
