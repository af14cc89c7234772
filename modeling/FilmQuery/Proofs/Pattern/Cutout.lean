/-
# Phrases cut out of a text

A pattern that asks for no end of the text can be met in a text that is cut off just as in the whole
text: its ways are those that do not go beyond the cut, in the same order (`ways_cut`).  What a
boundary sees at the cut must be the same in both, so either no word goes on there or the pattern
does not look.  An occurrence that is cut out of its text is therefore the one occurrence in what
was cut out (`occurrences_cutout`).
-/
import FilmQuery.Proofs.Pattern.Finding
import FilmQuery.Proofs.Pattern.Separation

namespace FilmQuery

open Text (isWord)
open Place (Alike)

/-- Whether a place does not lie behind the beginning of the last characters of its text. -/
def Place.isWithin (tail : List Char) (p : Place) : Bool := decide (tail.length ≤ p.rest.length)

namespace Occurrence.LiesIn

variable {m : Occurrence} {text : List Char}

theorem length_text (lies : m.LiesIn text) : m.text.length = m.stop - m.start := by
  have stop := lies.stop_le_length
  rw [lies.text_eq, List.length_take, List.length_drop]
  omega

/-- The text from where an occurrence begins. -/
theorem drop_start (lies : m.LiesIn text) : text.drop m.start = m.text ++ text.drop m.stop := by
  have behind : (text.drop m.start).drop (m.stop - m.start) = text.drop m.stop := by
    rw [List.drop_drop, Nat.add_sub_cancel' lies.start_le_stop]
  rw [lies.text_eq, ← behind, List.take_append_drop]

end Occurrence.LiesIn

namespace Pattern

/-- Whether a pattern can be tried on a text that is cut off in front of a character as if the text
went on; `word` says whether the character is part of a word. -/
def allowsCut (word : Bool) : Pattern → Bool
  | .boundary | .absent (.oneOf [.ofClass .word]) => !word
  | .absent _ | .atStart | .atEnd => false
  | .seq a b | .alt a b => a.allowsCut word && b.allowsCut word
  | .group _ body | .repeated _ _ _ body => body.allowsCut word
  | _ => true

variable {blind : Bool} {pattern : Pattern} {distance : Nat} {tail : List Char} {p q : Place}

theorem filter_isWithin_of_alike (alike : Alike distance tail p q) :
    [q].filter (Place.isWithin tail) = [q] := by
  simp [Place.isWithin, alike.rest]

/-- Alike places both stay where they are. -/
theorem stay_cut (alike : Alike distance tail p q) :
    List.Forall₂ (Alike distance tail) [p] ([q].filter (Place.isWithin tail)) := by
  rw [filter_isWithin_of_alike alike]
  exact .cons alike .nil

theorem eq_word_of_allowsCut_absent {word : Bool} {body : Pattern}
    (allows : (Pattern.absent body).allowsCut word = true) :
    body = .oneOf [.ofClass .word] ∧ word = false := by
  unfold allowsCut at allows
  split at allows <;> simp_all

/-- From a place behind the cut no way leads back. -/
theorem filter_eq_nil_of_ahead {places : List Place} (ahead : ∀ s ∈ places, q.Ahead s)
    (behind : q.isWithin tail = false) : places.filter (Place.isWithin tail) = [] := by
  apply List.filter_eq_nil_iff.mpr
  intro s mem within
  have length := (ahead s mem).advance_add_length
  simp only [Place.isWithin, decide_eq_true_eq, decide_eq_false_iff_not] at within behind
  omega

theorem filter_flatMap_ahead {f : Place → List Place} (ahead : ∀ r, ∀ s ∈ f r, r.Ahead s)
    (places : List Place) :
    (places.flatMap f).filter (Place.isWithin tail) =
      (places.filter (Place.isWithin tail)).flatMap fun r =>
        (f r).filter (Place.isWithin tail) := by
  induction places with
  | nil => rfl
  | cons r rest ih =>
      rw [List.flatMap_cons, List.filter_append, ih, List.filter_cons]
      cases within : r.isWithin tail with
      | true => rfl
      | false =>
          rw [filter_eq_nil_of_ahead (ahead r) within, List.nil_append]
          rfl

theorem take_cut (test : Char → Bool) (alike : Alike distance tail p q) :
    List.Forall₂ (Alike distance tail) (p.take test)
      ((q.take test).filter (Place.isWithin tail)) := by
  have rest := alike.rest
  unfold Place.take
  cases restP : p.rest with
  | nil =>
      rw [restP, List.nil_append] at rest
      rw [rest]
      cases tail with
      | nil => exact .nil
      | cons c tail => cases test c <;> simp [Place.isWithin]
  | cons c restP' =>
      rw [restP, List.cons_append] at rest
      simp only [rest]
      cases test c
      · exact .nil
      · refine stay_cut ⟨rfl, ?_, rfl, alike.said⟩
        simp only [alike.position, Nat.add_right_comm]

section Repetitions

variable {step : Place → List Place}

theorem exactly_cut (ahead : ∀ {p q}, q ∈ step p → p.Ahead q)
    (cutSteps : ∀ {p q}, Alike distance tail p q →
      List.Forall₂ (Alike distance tail) (step p) ((step q).filter (Place.isWithin tail)))
    (n : Nat) (alike : Alike distance tail p q) :
    List.Forall₂ (Alike distance tail) (exactly step n p)
      ((exactly step n q).filter (Place.isWithin tail)) := by
  induction n generalizing p q with
  | zero => exact stay_cut alike
  | succ n ih =>
      rw [exactly, exactly, filter_flatMap_ahead fun r s => ahead_of_mem_exactly ahead n]
      exact List.rel_flatMap (cutSteps alike) fun _ _ => ih

theorem further_cut (ahead : ∀ {p q}, q ∈ step p → p.Ahead q)
    (cutSteps : ∀ {p q}, Alike distance tail p q →
      List.Forall₂ (Alike distance tail) (step p) ((step q).filter (Place.isWithin tail)))
    (eager : Bool) (limit : Nat) (alike : Alike distance tail p q) :
    List.Forall₂ (Alike distance tail) (further step eager limit p)
      ((further step eager limit q).filter (Place.isWithin tail)) := by
  induction limit generalizing p q with
  | zero => exact stay_cut alike
  | succ limit ih =>
      have onward (r s : Place)
          (mem : s ∈ if q.position < r.position then further step eager limit r else [r]) :
          r.Ahead s := by
        split at mem
        · exact ahead_of_mem_further ahead eager limit mem
        · rw [List.mem_singleton.mp mem]
          exact .refl r
      have longer : List.Forall₂ (Alike distance tail)
          ((step p).flatMap fun r =>
            if p.position < r.position then further step eager limit r else [r])
          (((step q).flatMap fun s =>
            if q.position < s.position then further step eager limit s else [s]).filter
              (Place.isWithin tail)) := by
        rw [filter_flatMap_ahead onward]
        refine List.rel_flatMap (cutSteps alike) fun r s (reached : Alike _ _ r s) => ?_
        have same : q.position < s.position ↔ p.position < r.position := by
          rw [alike.position, reached.position, Nat.add_lt_add_iff_right]
        simp only [same]
        split
        · exact ih reached
        · exact stay_cut reached
      cases eager
      · simp only [further, Bool.false_eq_true, if_false]
        rw [← List.singleton_append, ← List.singleton_append (x := q), List.filter_append]
        exact List.rel_append (stay_cut alike) longer
      · simp only [further, if_true, List.filter_append]
        exact List.rel_append longer (stay_cut alike)

end Repetitions

/-- The ways of a pattern in a text that is cut off are those in the whole text that do not go
beyond the cut. -/
theorem ways_cut (allows : pattern.allowsCut (tail.head?.any isWord) = true)
    (alike : Alike distance tail p q) :
    List.Forall₂ (Alike distance tail) (pattern.ways blind p)
      ((pattern.ways blind q).filter (Place.isWithin tail)) := by
  induction pattern generalizing p q with
  | nothing => exact stay_cut alike
  | char c => exact take_cut _ alike
  | oneOf members => exact take_cut _ alike
  | any => exact take_cut _ alike
  | atStart => exact absurd allows Bool.false_ne_true
  | atEnd => exact absurd allows Bool.false_ne_true
  | boundary =>
      have wordless : tail.head?.any isWord = false := by simpa [allowsCut] using allows
      simp only [ways, alike.isBoundary wordless]
      split
      · exact stay_cut alike
      · exact .nil
  | absent body ih =>
      obtain ⟨rfl, wordless⟩ := eq_word_of_allowsCut_absent allows
      have refused : ∀ c ∈ tail.head?, isIn blind [.ofClass .word] c = false := by
        rintro c head
        rw [head, Option.any_some] at wordless
        simp [isIn, CharClass.has, wordless]
      have empty : (ways blind (.oneOf [.ofClass .word]) q).isEmpty =
          (ways blind (.oneOf [.ofClass .word]) p).isEmpty := by
        rw [Bool.eq_iff_iff, List.isEmpty_iff_length_eq_zero, List.isEmpty_iff_length_eq_zero,
          ways, ways, (alike.take refused).length_eq]
      unfold ways
      simp only [empty]
      split
      · exact stay_cut alike
      · exact .nil
  | seq a b first second =>
      obtain ⟨ofA, ofB⟩ := Bool.and_eq_true_iff.mp allows
      rw [ways, ways, filter_flatMap_ahead fun r s => ahead_of_mem_ways]
      exact List.rel_flatMap (first ofA alike) fun _ _ => second ofB
  | alt a b first second =>
      obtain ⟨ofA, ofB⟩ := Bool.and_eq_true_iff.mp allows
      rw [ways, ways, List.filter_append]
      exact List.rel_append (first ofA alike) (second ofB alike)
  | group index body ih =>
      have ahead := (List.forall₂_and_left _ _).mpr
        ⟨fun r (mem : r ∈ body.ways blind p) => ahead_of_mem_ways mem, ih allows alike⟩
      have remembered : (Place.isWithin tail ∘ Place.remember index q) = Place.isWithin tail := rfl
      rw [ways, ways, List.filter_map, remembered, List.forall₂_map_left_iff,
        List.forall₂_map_right_iff]
      exact ahead.imp fun r s onward => alike.remember onward.2 onward.1
  | repeated least most eager body ih =>
      have steps {p q : Place} := ih (p := p) (q := q) allows
      rw [ways, ways,
        filter_flatMap_ahead fun r s => ahead_of_mem_further ahead_of_mem_ways eager _]
      refine List.rel_flatMap (exactly_cut ahead_of_mem_ways steps least alike)
        fun r s (onward : Alike _ _ r s) => ?_
      have longer := further_cut ahead_of_mem_ways steps eager (allowance least most s) onward
      rwa [further_allowance onward] at longer

section Phrases

variable {rest : Pattern}

/-- The beginning of a word is seen in a text that is cut off, unless nothing is left of it. -/
theorem ways_boundary_cut (allows : rest.allowsCut (tail.head?.any isWord) = true)
    (alike : Alike distance tail p q) (nonempty : p.rest ≠ []) :
    List.Forall₂ (Alike distance tail) (ways blind (.seq .boundary rest) p)
      ((ways blind (.seq .boundary rest) q).filter (Place.isWithin tail)) := by
  have same : q.isBoundary = p.isBoundary := by
    obtain ⟨c, others, restP⟩ := List.exists_cons_of_ne_nil nonempty
    rw [Place.isBoundary, Place.isBoundary, alike.previous, alike.rest, restP]
    rfl
  rw [ways, ways.eq_def _ (.seq .boundary rest) q]
  simp only [filter_flatMap_ahead fun r s => ahead_of_mem_ways]
  refine List.rel_flatMap ?_ fun _ _ => ways_cut allows
  simp only [ways, same]
  split
  · exact stay_cut alike
  · exact .nil

/-- At a place from which the first way does not go beyond the cut, the same occurs in the whole
text as in the one that is cut off. -/
theorem occurrencesAt_cut (solid : ¬ Spells blind (.seq .boundary rest) [])
    (allows : rest.allowsCut (tail.head?.any isWord) = true) (alike : Alike distance tail p q)
    (nonempty : p.rest ≠ [])
    (within : ∀ r ∈ (ways blind (.seq .boundary rest) q).head?, r.isWithin tail = true) :
    occurrencesAt blind (.seq .boundary rest) q =
      (occurrencesAt blind (.seq .boundary rest) p).map (Occurrence.moved distance) := by
  have cut := (List.forall₂_and_left _ _).mpr
    ⟨fun r (mem : r ∈ ways blind (.seq .boundary rest) p) => ahead_of_mem_ways mem,
      ways_boundary_cut allows alike nonempty⟩
  rw [occurrencesAt_eq solid, occurrencesAt_eq solid]
  revert cut within
  generalize ways blind (.seq .boundary rest) p = places
  generalize ways blind (.seq .boundary rest) q = places'
  intro within cut
  cases places' with
  | nil =>
      rw [List.filter_nil, List.forall₂_nil_right_iff] at cut
      rw [cut]
      rfl
  | cons s others =>
      rw [List.filter_cons_of_pos (within s rfl)] at cut
      cases cut with
      | cons first _ =>
          simp [occurrenceBetween_alike alike first.2 first.1]

/-- Where an occurrence begins with a word, no word comes just before it. -/
theorem isWord_before_eq_false {text : List Char} {m : Occurrence}
    (mem : m ∈ occurrences blind (.seq .boundary rest) text)
    (opens : m.text.head?.any isWord = true) :
    (text.take m.start).getLast?.any isWord = false := by
  have lies := (occurrences_inOrder blind (.seq .boundary rest) text).liesIn m mem
  obtain ⟨q, way, _⟩ := exists_way_of_mem_occurrences mem
  obtain ⟨r, atBoundary, _⟩ := List.mem_flatMap.mp way
  have boundary : (Place.inText text m.start).isBoundary = true := by
    by_contra inside
    simp [ways, inside] at atBoundary
  cases textEq : m.text with
  | nil =>
      rw [textEq] at opens
      cases opens
  | cons c others =>
      rw [textEq, List.head?_cons, Option.any_some] at opens
      simp only [Place.isBoundary, Place.inText, lies.drop_start, textEq, List.cons_append,
        List.head?_cons, Option.any_some, opens, bne_iff_ne, ne_eq, Bool.not_eq_true] at boundary
      exact boundary

/-- An occurrence that is cut out of its text is the only occurrence in what was cut out. -/
theorem occurrences_cutout (solid : ¬ Spells blind (.seq .boundary rest) []) {text : List Char}
    {m : Occurrence} (mem : m ∈ occurrences blind (.seq .boundary rest) text)
    (opens : m.text.head?.any isWord = true)
    (allows : rest.allowsCut ((text.drop m.stop).head?.any isWord) = true) :
    occurrences blind (.seq .boundary rest) m.text =
      [{ m with start := 0, stop := m.text.length }] := by
  have lies := (occurrences_inOrder blind (.seq .boundary rest) text).liesIn m mem
  have nonempty : m.text ≠ [] := by
    intro empty
    rw [empty] at opens
    cases opens
  have alike : Alike m.start (text.drop m.stop) ⟨none, 0, m.text, []⟩ (.inText text m.start) :=
    ⟨isWord_before_eq_false mem opens, (Nat.zero_add _).symm, lies.drop_start, rfl⟩
  obtain ⟨_, _, found, _⟩ := exists_way_of_mem_occurrences mem
  have only : occurrencesAt blind (.seq .boundary rest) (.inText text m.start) = [m] := by
    rw [occurrencesAt_eq solid] at found ⊢
    rw [Option.mem_toList] at found
    rw [found]
    rfl
  have within : ∀ r ∈ (ways blind (.seq .boundary rest) (.inText text m.start)).head?,
      r.isWithin (text.drop m.stop) = true := by
    intro r head
    have ahead := (ahead_of_mem_ways (List.mem_of_mem_head? head)).advance_add_length
    rw [occurrencesAt_eq solid, head] at only
    have stop : r.position = m.stop := congrArg Occurrence.stop (List.singleton_inj.mp only)
    simp only [Place.inText, stop, lies.drop_start, List.length_append, lies.length_text] at ahead
    simp only [Place.isWithin, decide_eq_true_eq]
    omega
  have moved := occurrencesAt_cut solid allows alike nonempty within
  rw [only] at moved
  obtain ⟨n, alone, back⟩ := List.map_eq_singleton_iff.mp moved.symm
  have unmoved : { m with start := 0, stop := m.text.length } = n := by
    have start : n.start + m.start = m.start := congrArg Occurrence.start back
    have stop : n.stop + m.start = m.stop := congrArg Occurrence.stop back
    have length := lies.length_text
    have others : { n.moved m.start with start := n.start, stop := n.stop } = n := rfl
    rwa [back, show n.start = 0 by omega, show n.stop = m.text.length by omega] at others
  rw [unmoved]
  apply occurrences_eq_singleton solid alone
  · rw [← unmoved]
  · rw [← unmoved]

end Phrases

end Pattern

end FilmQuery
