/-
# Patterns and gaps

Most patterns do not care how a gap is filled: they take it whole or not at all.  A repetition of
blanks may also stop within a gap, but what comes behind it then goes nowhere.  So only ways that
end outside of gaps matter, and from places that two texts share these lead to shared places, in
the same order (`ways_respaced`).  That a pattern is of this sort is checked on the pattern
(`respaces`).  A phrase with a single space of its own has to be kept by the respacing.
-/
import FilmQuery.Proofs.Pattern.Blanks
import FilmQuery.Proofs.Pattern.Respacing

namespace FilmQuery

open Respacing (text)
open Text (isBlank isWord sameLetter phraseChars)

namespace Respacing

variable {respaced : Bool} {r : Respacing} {j k : Nat}

section Ends

variable {test : Char → Bool} {b : Bool}

/-- What a test that treats all blanks alike says of the first character of a text is told by the
first piece. -/
theorem head?_any_text (blank : ∀ c, isBlank c = true → test c = b) (r : Respacing) :
    (r.text true).head?.any test = (r.text false).head?.any test := by
  cases r with
  | nil => rfl
  | cons piece r =>
      cases piece with
      | visible c isVisible => rfl
      | gap before after isGap isGap' =>
          obtain ⟨c, others, rfl⟩ := List.exists_cons_of_ne_nil isGap.nonempty
          obtain ⟨d, others', rfl⟩ := List.exists_cons_of_ne_nil isGap'.nonempty
          exact (blank d (isGap'.blank d List.mem_cons_self)).trans
            (blank c (isGap.blank c List.mem_cons_self)).symm

theorem getLast?_any_text (blank : ∀ c, isBlank c = true → test c = b) (r : Respacing) :
    (r.text true).getLast?.any test = (r.text false).getLast?.any test := by
  rcases List.eq_nil_or_concat r with rfl | ⟨r, piece, rfl⟩
  · rfl
  · rw [List.concat_eq_append, text_append, text_append, text_cons, text_nil, List.append_nil,
      text_cons, text_nil, List.append_nil,
      List.getLast?_append_of_ne_nil _ (piece.text_ne_nil _),
      List.getLast?_append_of_ne_nil _ (piece.text_ne_nil _)]
    cases piece with
    | visible c isVisible => rfl
    | gap before after isGap isGap' =>
        have last := List.getLast?_eq_getLast_of_ne_nil isGap.nonempty
        have last' := List.getLast?_eq_getLast_of_ne_nil isGap'.nonempty
        show after.getLast?.any test = before.getLast?.any test
        rw [last, last']
        exact (blank _ (isGap'.blank _ (List.getLast_mem _))).trans
          (blank _ (isGap.blank _ (List.getLast_mem _))).symm

end Ends

/-- Up to a later place the text is what it is up to an earlier one, and the pieces between. -/
theorem text_take_eq (le : j ≤ k) :
    text respaced (r.take k) =
      text respaced (r.take j) ++ text respaced ((r.drop j).take (k - j)) := by
  rw [← text_append, ← List.take_add, Nat.add_sub_cancel' le]

/-- From an earlier place on the text is the pieces between, and what it is from a later one on. -/
theorem text_drop_eq (le : j ≤ k) :
    text respaced (r.drop j) =
      text respaced ((r.drop j).take (k - j)) ++ text respaced (r.drop k) := by
  rw [← text_append]
  congr 1
  rw [← Nat.add_sub_cancel' le, ← List.drop_drop, Nat.add_sub_cancel_left, List.take_append_drop]

theorem length_between (le : j ≤ k) :
    (text respaced (r.take k)).length - (text respaced (r.take j)).length =
      (text respaced ((r.drop j).take (k - j))).length := by
  rw [text_take_eq le, List.length_append, Nat.add_sub_cancel_left]

/-- The more pieces, the longer the text. -/
theorem length_text_take_lt (lt : j < k) (within : k ≤ r.length) :
    (text respaced (r.take j)).length < (text respaced (r.take k)).length := by
  have more : (r.drop j).take (k - j) ≠ [] := by
    apply List.ne_nil_of_length_pos
    rw [List.length_take, List.length_drop]
    omega
  have some := List.length_pos_iff.mpr (mt (text_eq_nil_iff respaced).mp more)
  rw [text_take_eq (Nat.le_of_lt lt), List.length_append]
  omega

end Respacing

namespace Place

/-- A place of one of two texts, in front of which some pieces have gone by. -/
structure At (r : Respacing) (respaced : Bool) (k : Nat) (p : Place) : Prop where
  within : k ≤ r.length
  rest : p.rest = text respaced (r.drop k)
  previous : p.previous = (text respaced (r.take k)).getLast?
  position : p.position = (text respaced (r.take k)).length

variable {r : Respacing} {respaced : Bool} {j k : Nat} {p q p' q' : Place}

theorem At.past (here : p.At r respaced k) {middle back : Respacing}
    (split : r.drop k = middle ++ back) :
    (p.past (middle.text respaced).length).At r respaced (k + middle.length) := by
  have gone : r.take (k + middle.length) = r.take k ++ middle := by
    rw [List.take_add, split, List.take_left]
  have rest : p.rest = middle.text respaced ++ back.text respaced := by
    rw [here.rest, split, Respacing.text_append]
  constructor
  · have lengths := congrArg List.length split
    rw [List.length_drop, List.length_append] at lengths
    have within := here.within
    omega
  · show p.rest.drop _ = _
    rw [rest, List.drop_left, ← List.drop_drop, split, List.drop_left]
  · show (p.rest.take _).getLast?.or p.previous = _
    rw [rest, List.take_left, here.previous, gone, Respacing.text_append, List.getLast?_append]
  · show p.position + _ = _
    rw [here.position, gone, Respacing.text_append, List.length_append]

theorem At.next (here : p.At r respaced k) {piece : Piece} {back : Respacing}
    (split : r.drop k = piece :: back) :
    (p.past (piece.text respaced).length).At r respaced (k + 1) := by
  have onward := here.past (show r.drop k = [piece] ++ back from split)
  rwa [Respacing.text_cons, Respacing.text_nil, List.append_nil] at onward

/-- The order of places is that of their numbers. -/
theorem At.position_lt_iff (first : p.At r respaced j) (second : q.At r respaced k) :
    p.position < q.position ↔ j < k := by
  rw [first.position, second.position]
  constructor
  · intro lt
    by_contra le
    rcases Nat.lt_or_eq_of_le (Nat.le_of_not_lt le) with gt | rfl
    · exact Nat.lt_asymm lt (Respacing.length_text_take_lt gt first.within)
    · exact Nat.lt_irrefl _ lt
  · exact fun lt => Respacing.length_text_take_lt lt second.within

/-- Between two places are the pieces between their numbers. -/
theorem At.between (here : p.At r respaced j) (here' : p'.At r respaced k) (order : j ≤ k) :
    p.rest.take (p'.position - p.position) = text respaced ((r.drop j).take (k - j)) := by
  rw [here.rest, here'.position, here.position, Respacing.length_between order,
    Respacing.text_drop_eq order, List.take_left]

/-- A test that treats all blanks alike says the same of the next character in both texts. -/
theorem At.head?_any (here : p.At r false k) (there : q.At r true k) {test : Char → Bool}
    {b : Bool} (blank : ∀ c, isBlank c = true → test c = b) :
    q.rest.head?.any test = p.rest.head?.any test := by
  rw [here.rest, there.rest, Respacing.head?_any_text blank]

theorem At.previous_any (here : p.At r false k) (there : q.At r true k) {test : Char → Bool}
    {b : Bool} (blank : ∀ c, isBlank c = true → test c = b) :
    q.previous.any test = p.previous.any test := by
  rw [here.previous, there.previous, Respacing.getLast?_any_text blank]

theorem At.isBoundary (here : p.At r false k) (there : q.At r true k) :
    q.isBoundary = p.isBoundary := by
  have wordless (c : Char) (blank : isBlank c = true) : isWord c = false :=
    Text.isWord_eq_false_of_isBlank blank
  rw [Place.isBoundary, Place.isBoundary, here.head?_any there wordless,
    here.previous_any there wordless]

theorem At.isOutside (here : p.At r false k) (there : q.At r true k) :
    q.isOutside = p.isOutside := by
  have blank (c : Char) (blank : isBlank c = true) : isBlank c = true := blank
  rw [Place.isOutside, Place.isOutside, here.head?_any there blank, here.previous_any there blank]

end Place

/-- Two groups say the same but for how gaps are filled. -/
def SaysAlike (said said' : Nat × List Char) : Prop :=
  said.1 = said'.1 ∧ ∃ part : Respacing, said.2 = part.text false ∧ said'.2 = part.text true

/-- The same place of two texts, outside of gaps. -/
structure Place.Respaced (r : Respacing) (p q : Place) : Prop where
  shared : ∃ k, p.At r false k ∧ q.At r true k
  outside : p.isOutside = true
  said : List.Forall₂ SaysAlike p.said q.said

namespace Place.Respaced

variable {r : Respacing} {p q p' q' : Place}

theorem outside' (both : p.Respaced r q) : q.isOutside = true := by
  obtain ⟨k, here, there⟩ := both.shared
  rw [here.isOutside there]
  exact both.outside

theorem isBoundary (both : p.Respaced r q) : q.isBoundary = p.isBoundary := by
  obtain ⟨k, here, there⟩ := both.shared
  exact here.isBoundary there

theorem position_lt_iff (both : p.Respaced r q) (both' : p'.Respaced r q') :
    p.position < p'.position ↔ q.position < q'.position := by
  obtain ⟨j, here, there⟩ := both.shared
  obtain ⟨k, here', there'⟩ := both'.shared
  rw [here.position_lt_iff here', there.position_lt_iff there']

/-- What a group meets between two shared places is part of both texts. -/
theorem remember (index : Nat) (opened : p.Respaced r q) (closed : p'.Respaced r q')
    (ahead : p.Ahead p') : (p.remember index p').Respaced r (q.remember index q') := by
  obtain ⟨j, here, there⟩ := opened.shared
  obtain ⟨k, here', there'⟩ := closed.shared
  refine ⟨⟨k, ⟨here'.within, here'.rest, here'.previous, here'.position⟩,
    ⟨there'.within, there'.rest, there'.previous, there'.position⟩⟩, closed.outside, ?_⟩
  have order : j ≤ k := by
    rw [← Nat.not_lt, ← here'.position_lt_iff here, Nat.not_lt]
    exact ahead.position_le
  exact .cons ⟨rfl, _, here.between here' order, there.between there' order⟩ closed.said

/-- Behind the same pieces two texts share a place. -/
theorem past (middle : Respacing) (both : p.Respaced r q) {k : Nat} (here : p.At r false k)
    (there : q.At r true k) {back : Respacing} (split : r.drop k = middle ++ back)
    (outside : (p.past (middle.text false).length).isOutside = true) :
    (p.past (middle.text false).length).Respaced r (q.past (middle.text true).length) :=
  ⟨⟨_, here.past split, there.past split⟩, outside, both.said⟩

/-- A test that no blank passes takes the same visible character of both texts. -/
theorem take (both : p.Respaced r q) {test : Char → Bool}
    (refuses : ∀ c, isBlank c = true → test c = false) :
    List.Forall₂ (Place.Respaced r) (p.take test) (q.take test) := by
  obtain ⟨k, here, there⟩ := both.shared
  have same := here.head?_any there refuses
  cases stops : p.rest.head?.any test with
  | false =>
      rw [Place.take_eq_nil stops, Place.take_eq_nil (same.trans stops)]
      exact .nil
  | true =>
      -- What passes is no blank, so it is a visible piece.
      obtain ⟨piece, back, split⟩ : ∃ piece back, r.drop k = piece :: back := by
        cases split : r.drop k with
        | nil =>
            rw [here.rest, split] at stops
            cases stops
        | cons piece back => exact ⟨piece, back, rfl⟩
      cases piece with
      | gap before after isGap isGap' =>
          obtain ⟨c, others, beforeEq⟩ := List.exists_cons_of_ne_nil isGap.nonempty
          rw [here.rest, split, Respacing.text_cons] at stops
          have blank := refuses c (isGap.blank c (beforeEq ▸ List.mem_cons_self))
          simp [Piece.text, beforeEq, blank] at stops
      | visible c isVisible =>
          have rest {respaced : Bool} {p : Place} (here : p.At r respaced k) :
              p.rest = c :: text respaced back := by
            rw [here.rest, split]
            rfl
          have passes : test c = true := by
            rwa [rest here] at stops
          rw [Place.take_eq_singleton (rest here) passes,
            Place.take_eq_singleton (rest there) passes]
          refine .cons (past [.visible c isVisible] both here there split ?_) .nil
          apply Place.isOutside_of_previous
          show (p.past 1).previous.any isBlank = false
          rw [Place.past_one (rest here), Option.any_some, isVisible]

end Place.Respaced

section Typed

variable {first second word typed text behind : List Char}

theorem exists_append_of_isTyped (isTyped : IsTyped (first ++ second) typed) :
    ∃ front back, typed = front ++ back ∧ IsTyped first front ∧ IsTyped second back := by
  have ofFirst := List.forall₂_take first.length isTyped
  have ofSecond := List.forall₂_drop first.length isTyped
  rw [List.take_left] at ofFirst
  rw [List.drop_left] at ofSecond
  exact ⟨_, _, (List.take_append_drop first.length typed).symm, ofFirst, ofSecond⟩

theorem beginsWith_append_iff : BeginsWith (first ++ second) text ↔
    BeginsWith first text ∧ BeginsWith second (text.drop first.length) := by
  constructor
  · rintro ⟨typed, behind, rfl, isTyped⟩
    obtain ⟨front, back, rfl, ofFirst, ofSecond⟩ := exists_append_of_isTyped isTyped
    rw [List.append_assoc, ofFirst.length_eq, List.drop_left]
    exact ⟨⟨front, back ++ behind, rfl, ofFirst⟩, back, behind, rfl, ofSecond⟩
  · rintro ⟨⟨front, others, rfl, ofFirst⟩, back, behind, rest, ofSecond⟩
    rw [ofFirst.length_eq, List.drop_left] at rest
    exact ⟨front ++ back, behind, by rw [rest, List.append_assoc],
      List.rel_append ofFirst ofSecond⟩

/-- Only a space counts as a space. -/
theorem exists_of_isTyped_space (isTyped : IsTyped (' ' :: word) typed) :
    ∃ back, typed = ' ' :: back ∧ IsTyped word back := by
  cases isTyped with
  | cons same others =>
      exact ⟨_, by rw [Text.eq_of_sameLetter (by decide) same], others⟩

end Typed

namespace Pattern

/-- The word that a pattern takes character by character, if it does. -/
def literal? : Pattern → Option (List Char)
  | .nothing => some []
  | .char c => some [c]
  | .seq a b => a.literal?.bind fun first => b.literal?.map (first ++ ·)
  | _ => none

theorem ways_of_literal {pattern : Pattern} {word : List Char}
    (literal : pattern.literal? = some word) (p : Place) :
    pattern.ways true p = if BeginsWith word p.rest then [p.past word.length] else [] := by
  induction pattern generalizing word p with
  | nothing =>
      obtain rfl := Option.some.inj literal
      rw [if_pos ⟨[], p.rest, rfl, .nil⟩, List.length_nil, p.past_zero]
      rfl
  | char c =>
      obtain rfl := Option.some.inj literal
      show p.take (sameLetter c) = _
      cases rest : p.rest with
      | nil =>
          rw [Place.take_eq_nil (by rw [rest]; rfl), if_neg]
          rintro ⟨typed, behind, nothing, isTyped⟩
          cases isTyped
          cases nothing
      | cons d others =>
          cases same : sameLetter c d with
          | true =>
              rw [Place.take_eq_singleton rest same, if_pos ⟨[d], others, rfl, .cons same .nil⟩]
              rfl
          | false =>
              rw [Place.take_eq_nil (by rwa [rest]), if_neg]
              rintro ⟨typed, behind, split, isTyped⟩
              cases isTyped with
              | cons same' _ =>
                  obtain rfl : d = _ := (List.cons.inj split).1
                  rw [same] at same'
                  cases same'
  | seq a b first second =>
      obtain ⟨front, ofA, mapped⟩ := Option.bind_eq_some_iff.mp literal
      obtain ⟨back, ofB, rfl⟩ := Option.map_eq_some_iff.mp mapped
      simp only [ways, first ofA, beginsWith_append_iff]
      by_cases begins : BeginsWith front p.rest
      · rw [if_pos begins, List.flatMap_singleton, second ofB, Place.past_past, List.length_append]
        simp only [begins, true_and]
        rfl
      · simp [begins]
  | _ => cases literal

/-- Whether a pattern takes gaps whole or not at all, but for the single space of a phrase; `fresh`
says whether it begins behind a blank. -/
def respaces (phrases : List (List Char × List Char)) (fresh : Bool) : Pattern → Bool
  | .nothing | .boundary => true
  | .absent body => body.inks
  | .seq a b =>
    (fresh && phrases.any fun phrase => (a.seq b).literal? == some (phrase.1 ++ ' ' :: phrase.2)) ||
      a.respaces phrases fresh && b.respaces phrases (a.endsBlank fresh) &&
        (a.endsOutside || b.shuns false)
  | .alt a b => a.respaces phrases fresh && b.respaces phrases fresh
  | .group _ body => body.respaces phrases fresh
  | .repeated least most eager body =>
    (least == 0 && most == some 1 && body.respaces phrases fresh) ||
      (decide (least ≤ 1) && most == none && eager && body == blank) ||
        (body.respaces phrases false && body.endsOutside)
  | other => other.inks

variable {pattern : Pattern} {r : Respacing} {p q : Place} {places places' : List Place}
  {phrases : List (List Char × List Char)}

open Place (Respaced isOutside)

/-- Shared places are outside of gaps. -/
theorem filter_eq_of_respaced (alike : List.Forall₂ (Respaced r) places places') :
    places.filter isOutside = places ∧ places'.filter isOutside = places' := by
  induction alike with
  | nil => exact ⟨rfl, rfl⟩
  | cons both _ ih =>
      rw [List.filter_cons_of_pos both.outside, List.filter_cons_of_pos both.outside', ih.1, ih.2]
      exact ⟨rfl, rfl⟩

theorem filter_respaced (alike : List.Forall₂ (Respaced r) places places') :
    List.Forall₂ (Respaced r) (places.filter isOutside) (places'.filter isOutside) := by
  obtain ⟨all, all'⟩ := filter_eq_of_respaced alike
  rwa [all, all']

theorem stay_respaced (both : p.Respaced r q) :
    List.Forall₂ (Respaced r) ([p].filter isOutside) ([q].filter isOutside) :=
  filter_respaced (.cons both .nil)

/-- What is sought behind some places is sought behind those that are outside of gaps, if it begins
nowhere else. -/
theorem filter_flatMap_outside {f : Place → List Place}
    (nowhere : ∀ s ∈ places, s.isOutside = false → f s = []) :
    (places.flatMap f).filter isOutside =
      (places.filter isOutside).flatMap fun s => (f s).filter isOutside := by
  induction places with
  | nil => rfl
  | cons s others ih =>
      obtain ⟨here, later⟩ := List.forall_mem_cons.mp nowhere
      rw [List.flatMap_cons, List.filter_append, ih later, List.filter_cons]
      cases outside : s.isOutside with
      | true => rfl
      | false =>
          rw [here outside]
          rfl

/-- A phrase that the respacing keeps is in both texts or in neither. -/
theorem ways_phrase (keeps : r.Keeps phrases) (words : Respacing.areWords phrases = true)
    {phrase : List Char × List Char} (mem : phrase ∈ phrases)
    (literal : pattern.literal? = some (phrase.1 ++ ' ' :: phrase.2)) (both : p.Respaced r q)
    (fresh : p.previous.any isBlank = true) :
    List.Forall₂ (Respaced r) (pattern.ways true p) (pattern.ways true q) := by
  obtain ⟨k, here, there⟩ := both.shared
  obtain ⟨_, some, letters⟩ := Respacing.words_of_mem words mem
  -- If the phrase is in one of the texts, it is in both.
  have inBoth {respaced : Bool}
      (begins : BeginsWith (phrase.1 ++ ' ' :: phrase.2) (text respaced (r.drop k))) :
      ∃ middle back : Respacing, r.drop k = middle ++ back ∧ ∃ first second,
        IsTyped phrase.1 first ∧ IsTyped phrase.2 second ∧
          ∀ respaced, middle.text respaced = first ++ ' ' :: second := by
    obtain ⟨typed, behind, rest, isTyped⟩ := begins
    obtain ⟨first, others, rfl, isFirst, isOthers⟩ := exists_append_of_isTyped isTyped
    obtain ⟨second, rfl, isSecond⟩ := exists_of_isTyped_space isOthers
    rw [List.append_assoc, List.cons_append] at rest
    obtain ⟨middle, back, split, same⟩ := keeps.exists_phrase words mem
      (List.take_append_drop k r).symm (here.previous ▸ fresh) isFirst isSecond rest
    exact ⟨middle, back, split, first, second, isFirst, isSecond, same⟩
  rw [ways_of_literal literal, ways_of_literal literal, here.rest, there.rest]
  by_cases typed : ∃ respaced, BeginsWith (phrase.1 ++ ' ' :: phrase.2) (text respaced (r.drop k))
  · obtain ⟨respaced, begins⟩ := typed
    obtain ⟨middle, back, split, first, second, isFirst, isSecond, same⟩ := inBoth begins
    have inText (respaced : Bool) :
        BeginsWith (phrase.1 ++ ' ' :: phrase.2) (text respaced (r.drop k)) :=
      ⟨first ++ ' ' :: second, text respaced back, by rw [split, Respacing.text_append, same],
        List.rel_append isFirst (.cons (by decide) isSecond)⟩
    have length (respaced : Bool) :
        (middle.text respaced).length = (phrase.1 ++ ' ' :: phrase.2).length := by
      simp only [same, List.length_append, List.length_cons, isFirst.length_eq, isSecond.length_eq]
    have onward := Place.Respaced.past middle both here there split
    rw [length, length] at onward
    rw [if_pos (inText false), if_pos (inText true)]
    refine .cons (onward ?_) .nil
    -- The last character that is taken belongs to a word.
    have last := Respacing.getLast?_isWord_of_isTyped some letters isSecond (first ++ [' '])
    rw [List.append_assoc, List.singleton_append, ← same false] at last
    obtain ⟨c, lastEq, word⟩ := (Option.any_eq_true _ _).mp last
    apply Place.isOutside_of_previous
    rw [← length false, Place.past, here.rest, split, Respacing.text_append, List.take_left, lastEq,
      Option.some_or, Option.any_some, Text.isBlank_eq_false_of_isWord word]
  · rw [if_neg fun begins => typed ⟨false, begins⟩, if_neg fun begins => typed ⟨true, begins⟩]
    exact .nil

/-- A repetition of blanks takes the same gap of both texts. -/
theorem ways_blanks {least : Nat} (few : least ≤ 1) (both : p.Respaced r q) :
    List.Forall₂ (Respaced r) (((repeated least none true blank).ways true p).filter isOutside)
      (((repeated least none true blank).ways true q).filter isOutside) := by
  obtain ⟨k, here, there⟩ := both.shared
  obtain ⟨gaps, behind, split, areGaps, stops⟩ := Respacing.exists_gaps (r.drop k)
  have rest {respaced : Bool} {p : Place} (here : p.At r respaced k) :
      p.rest = text respaced gaps ++ text respaced behind := by
    rw [here.rest, split, Respacing.text_append]
  rw [filter_ways_blanks few both.outside (rest here) (Respacing.isBlank_of_gaps areGaps) (stops _),
    filter_ways_blanks few both.outside' (rest there) (Respacing.isBlank_of_gaps areGaps) (stops _)]
  simp only [Respacing.text_eq_nil_iff]
  refine List.rel_append ?_ ?_
  · split_ifs
    · exact .nil
    · refine .cons (Place.Respaced.past gaps both here there split ?_) .nil
      apply Place.isOutside_of_next
      show (List.drop _ p.rest).head?.any isBlank = false
      rw [rest here, List.drop_left, stops]
  · split_ifs
    · exact .cons both .nil
    · exact .nil

theorem ways_perhaps (eager : Bool) (body : Pattern) (p : Place) :
    (repeated 0 (some 1) eager body).ways true p =
      if eager then body.ways true p ++ [p] else [p] ++ body.ways true p := by
  simp [ways, exactly, further, allowance]

/-- The text that is longer may allow more repetitions, but there are no more. -/
theorem further_respaced
    (steps : ∀ {p q}, Respaced r p q →
      List.Forall₂ (Respaced r) (pattern.ways true p) (pattern.ways true q))
    (least : Nat) (most : Option Nat) (eager : Bool) (both : p.Respaced r q) :
    List.Forall₂ (Respaced r)
      (further (pattern.ways true) eager (allowance least most p) p)
      (further (pattern.ways true) eager (allowance least most q) q) := by
  have alike (limit : Nat) := further_rel steps Place.Respaced.position_lt_iff eager limit both
  cases most with
  | some bound => exact alike (bound - least)
  | none =>
      have most := alike (max (p.rest.length + 1) (q.rest.length + 1))
      have enough (p : Place) : p.rest.length < p.rest.length + 1 := Nat.lt_succ_self _
      rwa [further_eq_of_length_lt ahead_of_mem_ways eager (enough p) (Nat.le_max_left _ _),
        further_eq_of_length_lt ahead_of_mem_ways eager (enough q) (Nat.le_max_right _ _)] at most

/-- From a place that two texts share, the ways that end outside of gaps lead to places that they
share. -/
theorem ways_respaced (keeps : r.Keeps phrases) (words : Respacing.areWords phrases = true)
    {fresh : Bool} (respaces : pattern.respaces phrases fresh = true) (both : p.Respaced r q)
    (before : fresh = true → p.previous.any isBlank = true) :
    List.Forall₂ (Respaced r) ((pattern.ways true p).filter isOutside)
      ((pattern.ways true q).filter isOutside) := by
  induction pattern generalizing fresh p q with
  | nothing => exact stay_respaced both
  | boundary =>
      simp only [ways, both.isBoundary]
      split
      · exact stay_respaced both
      · exact .nil
  | char c | oneOf members | any | atStart | atEnd =>
      obtain ⟨test, waysEq, refuses⟩ := exists_test_of_inks respaces
      rw [waysEq, waysEq]
      exact filter_respaced (both.take refuses)
  | absent body =>
      obtain ⟨test, waysEq, refuses⟩ := exists_test_of_inks respaces
      have same : (q.take test).isEmpty = (p.take test).isEmpty := by
        rw [Bool.eq_iff_iff, List.isEmpty_iff_length_eq_zero, List.isEmpty_iff_length_eq_zero,
          (both.take refuses).length_eq]
      simp only [ways, waysEq, same]
      split
      · exact stay_respaced both
      · exact .nil
  | seq a b first second =>
      rcases Bool.or_eq_true_iff.mp respaces with isPhrase | parts
      · obtain ⟨fresh, listed⟩ := Bool.and_eq_true_iff.mp isPhrase
        obtain ⟨phrase, mem, literal⟩ := List.any_eq_true.mp listed
        exact filter_respaced (ways_phrase keeps words mem (eq_of_beq literal) both (before fresh))
      · simp only [Bool.and_eq_true] at parts
        obtain ⟨⟨ofA, ofB⟩, apart⟩ := parts
        have nowhere {p : Place} (outside : p.isOutside = true) :
            ∀ s ∈ a.ways true p, s.isOutside = false → b.ways true s = [] := by
          intro s toS inside
          rcases Bool.or_eq_true_iff.mp apart with ends | shuns
          · rw [isOutside_of_endsOutside ends outside toS] at inside
            cases inside
          · exact ways_eq_nil_of_shuns shuns (Place.next_of_isOutside_eq_false inside)
        have firsts := (List.forall₂_and_left _ _).mpr
          ⟨fun s (mem : s ∈ (a.ways true p).filter isOutside) => (List.mem_filter.mp mem).1,
            first ofA both before⟩
        rw [ways, ways, filter_flatMap_outside (nowhere both.outside),
          filter_flatMap_outside (nowhere both.outside')]
        exact List.rel_flatMap firsts fun s t onward =>
          second ofB onward.2 fun ends => previous_of_endsBlank ends before onward.1
  | alt a b first second =>
      obtain ⟨ofA, ofB⟩ := Bool.and_eq_true_iff.mp respaces
      rw [ways, ways, List.filter_append, List.filter_append]
      exact List.rel_append (first ofA both before) (second ofB both before)
  | group index body ih =>
      have ahead := (List.forall₂_and_left _ _).mpr
        ⟨fun s (mem : s ∈ (body.ways true p).filter isOutside) =>
          ahead_of_mem_ways (List.mem_filter.mp mem).1, ih respaces both before⟩
      have remembered (p : Place) : isOutside ∘ Place.remember index p = isOutside := rfl
      rw [ways, ways, List.filter_map, List.filter_map, remembered, remembered,
        List.forall₂_map_left_iff, List.forall₂_map_right_iff]
      exact ahead.imp fun s t onward => both.remember index onward.2 onward.1
  | repeated least most eager body ih =>
      simp only [Pattern.respaces, Bool.or_eq_true, Bool.and_eq_true] at respaces
      rcases respaces with (⟨⟨once, atMost⟩, ofBody⟩ | ⟨⟨⟨few, noLimit⟩, prefersMore⟩, isBlank⟩) |
        ⟨ofBody, ends⟩
      · obtain rfl := eq_of_beq once
        obtain rfl := eq_of_beq atMost
        have inside := ih ofBody both before
        have stay := stay_respaced both
        rw [ways_perhaps, ways_perhaps]
        split
        · rw [List.filter_append, List.filter_append]
          exact List.rel_append inside stay
        · rw [List.filter_append, List.filter_append]
          exact List.rel_append stay inside
      · obtain rfl := eq_of_beq noLimit
        obtain rfl := eq_of_beq isBlank
        obtain rfl : eager = true := prefersMore
        exact ways_blanks (of_decide_eq_true few) both
      · have steps {p q : Place} (both : p.Respaced r q) :
            List.Forall₂ (Respaced r) (body.ways true p) (body.ways true q) := by
          have inside := ih ofBody both fun none => by cases none
          have all {p : Place} (outside : p.isOutside = true) :
              (body.ways true p).filter isOutside = body.ways true p :=
            List.filter_eq_self.mpr fun s toS => isOutside_of_endsOutside ends outside toS
          rwa [all both.outside, all both.outside'] at inside
        have first := exactly_rel steps least both
        exact filter_respaced (List.rel_flatMap first fun s t onward =>
          further_respaced steps least most eager onward)

end Pattern

end FilmQuery
