/-
# The texts that a pattern takes

A way of a pattern takes a text and remembers what its groups have met.  Which texts these are is
said by `Spells`, one construct at a time, and without the place at which the pattern is tried:
anchors take the empty text, whatever they ask of their place.  So a text that a way takes is
spelled by the pattern (`exists_spells_of_mem_ways`), and what a group has met is spelled by its
body (`noted_of_mem_ways`); the converse is not claimed.  It is also part of the text that the way
takes (`exists_takes_of_mem_ways`).  Both are kept on every way because taking a character and
noting what a group has met keep them (`holds_of_mem_ways`).  A group that no way can pass by has
met something (`hasMet_of_alwaysMeets`).
-/
import FilmQuery.Pattern.Order

namespace FilmQuery

open Text

namespace Place

/-- The second place is reached from the first one by taking a text. -/
structure Takes (p : Place) (text : List Char) (q : Place) : Prop where
  rest : p.rest = text ++ q.rest
  previous : q.previous = text.getLast?.or p.previous
  position : q.position = p.position + text.length

theorem Takes.refl (p : Place) : p.Takes [] p := ⟨rfl, rfl, rfl⟩

theorem Takes.trans {p q r : Place} {first second : List Char} (toQ : p.Takes first q)
    (toR : q.Takes second r) : p.Takes (first ++ second) r where
  rest := by rw [toQ.rest, toR.rest, List.append_assoc]
  previous := by rw [toR.previous, toQ.previous, List.getLast?_append, Option.or_assoc]
  position := by rw [toR.position, toQ.position, List.length_append, Nat.add_assoc]

theorem Takes.remember {p q : Place} {text : List Char} (takes : p.Takes text q) (index : Nat)
    (opened : Place) : p.Takes text (opened.remember index q) :=
  ⟨takes.rest, takes.previous, takes.position⟩

/-- What is taken is the text between the two places. -/
theorem Takes.text_eq {p q : Place} {text : List Char} (takes : p.Takes text q) :
    text = p.rest.take (q.position - p.position) := by
  rw [takes.rest, takes.position, Nat.add_sub_cancel_left, List.take_left]

/-- A group has met something on the way. -/
def HasMet (p : Place) (index : Nat) : Prop := ∃ capture ∈ p.captures, capture.index = index

theorem HasMet.remember {index number : Nat} {opened closed : Place} (met : closed.HasMet index) :
    (Place.remember number opened closed).HasMet index := by
  obtain ⟨capture, mem, same⟩ := met
  exact ⟨capture, List.mem_cons_of_mem _ mem, same⟩

theorem exists_takes_of_mem_take {test : Char → Bool} {p q : Place} (mem : q ∈ p.take test) :
    ∃ c, test c = true ∧ p.Takes [c] q ∧ q.captures = p.captures := by
  unfold take at mem
  split at mem
  next c rest restEq =>
    split at mem
    next passes =>
      rw [List.mem_singleton.mp mem]
      exact ⟨c, passes, ⟨restEq, rfl, rfl⟩, rfl⟩
    next => simp at mem
  next => simp at mem

end Place

namespace Pattern

/-- Whether a pattern takes a text, given a place that has all that the pattern asks of it. -/
def Spells (blind : Bool) : Pattern → List Char → Prop
  | .char c, text => ∃ d, text = [d] ∧ (if blind then sameLetter c d else c == d) = true
  | .oneOf members, text => ∃ d, text = [d] ∧ isIn blind members d = true
  | .any, text => ∃ d, text = [d] ∧ d ≠ '\n'
  | .seq a b, text => ∃ first second, Spells blind a first ∧ Spells blind b second ∧
      text = first ++ second
  | .alt a b, text => Spells blind a text ∨ Spells blind b text
  | .group _ body, text => Spells blind body text
  | .repeated least most _ body, text =>
    ∃ texts : List (List Char), (∀ part ∈ texts, Spells blind body part) ∧
      least ≤ texts.length ∧ (∀ bound ∈ most, texts.length ≤ max least bound) ∧
      text = texts.flatten
  | _, text => text = []

/-- The groups of a pattern in which a way can come by, each with what is repeated in it. -/
def groups : Pattern → List (Nat × Pattern)
  | .seq a b | .alt a b => a.groups ++ b.groups
  | .group index body => (index, body) :: body.groups
  | .repeated _ _ _ body => body.groups
  | _ => []

/-- A capture whose text is spelled by one of the groups of that number. -/
def Notes (blind : Bool) (groups : List (Nat × Pattern)) (capture : Capture) : Prop :=
  ∃ body, (capture.index, body) ∈ groups ∧ Spells blind body capture.text

/-- Whether every way of a pattern leads through a group of some number. -/
def alwaysMeets (index : Nat) : Pattern → Bool
  | .seq a b => a.alwaysMeets index || b.alwaysMeets index
  | .alt a b => a.alwaysMeets index && b.alwaysMeets index
  | .group number body => number == index || body.alwaysMeets index
  | .repeated least _ _ body => least != 0 && body.alwaysMeets index
  | _ => false

variable {blind : Bool}

section Repetitions

variable {step : Place → List Place} {spelled : List Char → Prop}

theorem exists_takes_of_mem_exactly
    (takes : ∀ {p q}, q ∈ step p → ∃ text, spelled text ∧ p.Takes text q) (n : Nat) {p q : Place}
    (mem : q ∈ exactly step n p) :
    ∃ texts : List (List Char), (∀ part ∈ texts, spelled part) ∧ texts.length = n ∧
      p.Takes texts.flatten q := by
  induction n generalizing p with
  | zero =>
      rw [List.mem_singleton.mp mem]
      exact ⟨[], by simp, rfl, .refl p⟩
  | succ n ih =>
      obtain ⟨r, toR, toQ⟩ := List.mem_flatMap.mp mem
      obtain ⟨text, first, reach⟩ := takes toR
      obtain ⟨texts, later, length, onward⟩ := ih toQ
      exact ⟨text :: texts, List.forall_mem_cons.mpr ⟨first, later⟩,
        by rw [List.length_cons, length], reach.trans onward⟩

theorem exists_takes_of_mem_further
    (takes : ∀ {p q}, q ∈ step p → ∃ text, spelled text ∧ p.Takes text q) (eager : Bool)
    (limit : Nat) {p q : Place} (mem : q ∈ further step eager limit p) :
    ∃ texts : List (List Char), (∀ part ∈ texts, spelled part) ∧ texts.length ≤ limit ∧
      p.Takes texts.flatten q := by
  induction limit generalizing p with
  | zero =>
      rw [List.mem_singleton.mp mem]
      exact ⟨[], by simp, Nat.le_refl 0, .refl p⟩
  | succ limit ih =>
      rcases mem_further_succ.mp mem with rfl | ⟨r, toR, toQ⟩
      · exact ⟨[], by simp, Nat.zero_le _, .refl q⟩
      · obtain ⟨text, first, reach⟩ := takes toR
        split at toQ
        · obtain ⟨texts, later, length, onward⟩ := ih toQ
          exact ⟨text :: texts, List.forall_mem_cons.mpr ⟨first, later⟩,
            Nat.succ_le_succ length, reach.trans onward⟩
        · -- A step that took nothing is the last one.
          rw [List.mem_singleton.mp toQ]
          exact ⟨[text], by simpa using first, Nat.succ_le_succ (Nat.zero_le _),
            by simpa using reach⟩

/-- What every step keeps is kept by a repetition. -/
theorem holds_of_mem_exactly {holds : Place → Prop}
    (keeps : ∀ {p q}, q ∈ step p → holds p → holds q) (n : Nat) {p q : Place}
    (mem : q ∈ exactly step n p) (before : holds p) : holds q := by
  induction n generalizing p with
  | zero =>
      rw [List.mem_singleton.mp mem]
      exact before
  | succ n ih =>
      obtain ⟨r, toR, toQ⟩ := List.mem_flatMap.mp mem
      exact ih toQ (keeps toR before)

theorem holds_of_mem_further {holds : Place → Prop}
    (keeps : ∀ {p q}, q ∈ step p → holds p → holds q) (eager : Bool) (limit : Nat) {p q : Place}
    (mem : q ∈ further step eager limit p) (before : holds p) : holds q := by
  induction limit generalizing p with
  | zero =>
      rw [List.mem_singleton.mp mem]
      exact before
  | succ limit ih =>
      rcases mem_further_succ.mp mem with rfl | ⟨r, toR, toQ⟩
      · exact before
      · split at toQ
        · exact ih toQ (keeps toR before)
        · rw [List.mem_singleton.mp toQ]
          exact keeps toR before

end Repetitions

/-- Every way of a pattern takes a text that the pattern spells. -/
theorem exists_spells_of_mem_ways {pattern : Pattern} {p q : Place}
    (mem : q ∈ pattern.ways blind p) : ∃ text, pattern.Spells blind text ∧ p.Takes text q := by
  induction pattern generalizing p q with
  | nothing =>
      rw [List.mem_singleton.mp mem]
      exact ⟨[], rfl, .refl p⟩
  | char c =>
      obtain ⟨d, same, takes, _⟩ := Place.exists_takes_of_mem_take mem
      exact ⟨[d], ⟨d, rfl, same⟩, takes⟩
  | oneOf members =>
      obtain ⟨d, isIn, takes, _⟩ := Place.exists_takes_of_mem_take mem
      exact ⟨[d], ⟨d, rfl, isIn⟩, takes⟩
  | any =>
      obtain ⟨d, visible, takes, _⟩ := Place.exists_takes_of_mem_take mem
      exact ⟨[d], ⟨d, rfl, by simpa using visible⟩, takes⟩
  | boundary | atStart | atEnd | absent body ih =>
      simp only [ways] at mem
      split at mem
      · rw [List.mem_singleton.mp mem]
        exact ⟨[], rfl, .refl p⟩
      · simp at mem
  | seq a b first second =>
      obtain ⟨r, toR, toQ⟩ := List.mem_flatMap.mp mem
      obtain ⟨before, ofA, reach⟩ := first toR
      obtain ⟨behind, ofB, onward⟩ := second toQ
      exact ⟨before ++ behind, ⟨before, behind, ofA, ofB, rfl⟩, reach.trans onward⟩
  | alt a b first second =>
      rcases List.mem_append.mp mem with mem | mem
      · obtain ⟨text, ofA, takes⟩ := first mem
        exact ⟨text, .inl ofA, takes⟩
      · obtain ⟨text, ofB, takes⟩ := second mem
        exact ⟨text, .inr ofB, takes⟩
  | group index body ih =>
      obtain ⟨r, toR, remembered⟩ := List.mem_map.mp mem
      obtain ⟨text, ofBody, takes⟩ := ih toR
      rw [← remembered]
      exact ⟨text, ofBody, takes.remember index p⟩
  | repeated least most eager body ih =>
      obtain ⟨r, toR, toQ⟩ := List.mem_flatMap.mp mem
      obtain ⟨needed, ofNeeded, least_eq, reach⟩ := exists_takes_of_mem_exactly ih least toR
      obtain ⟨more, ofMore, limit, onward⟩ := exists_takes_of_mem_further ih eager _ toQ
      refine ⟨(needed ++ more).flatten, ⟨needed ++ more, ?_, ?_, ?_, rfl⟩, ?_⟩
      · intro part inParts
        exact (List.mem_append.mp inParts).elim (ofNeeded part) (ofMore part)
      · rw [List.length_append, least_eq]
        exact Nat.le_add_right _ _
      · rintro bound ⟨⟩
        rw [List.length_append, least_eq]
        simp only [allowance] at limit
        omega
      · rw [List.flatten_append]
        exact reach.trans onward

/-- What is kept when a character is taken and when a group notes what it has met is kept on every
way. -/
theorem holds_of_mem_ways (holds : Place → Prop) {pattern : Pattern}
    {groups : List (Nat × Pattern)}
    (take : ∀ {p q : Place} (c : Char), p.Takes [c] q → q.captures = p.captures → holds p → holds q)
    (note : ∀ {p q : Place} {text : List Char}, ∀ entry ∈ groups, entry.2.Spells blind text →
      p.Takes text q → holds p → holds q → holds (p.remember entry.1 q))
    (sub : pattern.groups ⊆ groups) {p q : Place} (mem : q ∈ pattern.ways blind p)
    (before : holds p) : holds q := by
  induction pattern generalizing p q with
  | nothing =>
      rw [List.mem_singleton.mp mem]
      exact before
  | char c | oneOf members | any =>
      obtain ⟨d, _, takes, same⟩ := Place.exists_takes_of_mem_take mem
      exact take d takes same before
  | boundary | atStart | atEnd | absent body ih =>
      simp only [ways] at mem
      split at mem
      · rw [List.mem_singleton.mp mem]
        exact before
      · simp at mem
  | seq a b first second =>
      obtain ⟨ofA, ofB⟩ := List.append_subset.mp sub
      obtain ⟨r, toR, toQ⟩ := List.mem_flatMap.mp mem
      exact second ofB toQ (first ofA toR before)
  | alt a b first second =>
      obtain ⟨ofA, ofB⟩ := List.append_subset.mp sub
      rcases List.mem_append.mp mem with mem | mem
      · exact first ofA mem before
      · exact second ofB mem before
  | group index body ih =>
      obtain ⟨here, inside⟩ := List.cons_subset.mp sub
      obtain ⟨r, toR, remembered⟩ := List.mem_map.mp mem
      obtain ⟨text, spelled, takes⟩ := exists_spells_of_mem_ways toR
      rw [← remembered]
      exact note _ here spelled takes before (ih inside toR before)
  | repeated least most eager body ih =>
      obtain ⟨r, toR, toQ⟩ := List.mem_flatMap.mp mem
      have step {s t : Place} (way : t ∈ body.ways blind s) (held : holds s) : holds t :=
        ih sub way held
      exact holds_of_mem_further step eager _ toQ (holds_of_mem_exactly step least toR before)

/-- Every capture behind a way of a pattern was there before or notes what a group of the pattern
has met. -/
theorem noted_of_mem_ways {pattern : Pattern} {groups : List (Nat × Pattern)}
    (sub : pattern.groups ⊆ groups) {p q : Place} (mem : q ∈ pattern.ways blind p)
    (before : ∀ capture ∈ p.captures, Notes blind groups capture) :
    ∀ capture ∈ q.captures, Notes blind groups capture := by
  refine holds_of_mem_ways (fun p => ∀ capture ∈ p.captures, Notes blind groups capture)
    (fun _ _ same held => same ▸ held) (fun entry here spelled takes _ held => ?_) sub mem before
  refine List.forall_mem_cons.mpr ⟨⟨entry.2, here, ?_⟩, held⟩
  rw [takes.text_eq] at spelled
  exact spelled

/-- What the groups of a pattern keep when they note something is kept on every way. -/
theorem holds_captures_of_mem_ways (holds : List Capture → Prop) {pattern : Pattern}
    {groups : List (Nat × Pattern)}
    (keeps : ∀ entry ∈ groups, ∀ opened length captures,
      holds captures → holds (⟨entry.1, opened, length⟩ :: captures))
    (sub : pattern.groups ⊆ groups) {p q : Place} (mem : q ∈ pattern.ways blind p)
    (before : holds p.captures) : holds q.captures :=
  holds_of_mem_ways (fun p => holds p.captures) (fun _ _ same held => same ▸ held)
    (fun entry here _ _ _ held => keeps entry here _ _ _ held) sub mem before

/-- What the groups of a pattern meet on a way is part of the text that the way takes. -/
theorem exists_takes_of_mem_ways {pattern : Pattern} {p q : Place}
    (mem : q ∈ pattern.ways blind p) (fresh : p.captures = []) :
    ∃ text, p.Takes text q ∧ ∀ capture ∈ q.captures, capture.text <:+: text := by
  refine holds_of_mem_ways
    (fun q => ∃ text, p.Takes text q ∧ ∀ capture ∈ q.captures, capture.text <:+: text)
    ?_ ?_ (List.Subset.refl _) mem ⟨[], .refl p, by simp [fresh]⟩
  · rintro r s c takes same ⟨text, reach, inside⟩
    refine ⟨text ++ [c], reach.trans takes, fun capture noted => ?_⟩
    rw [same] at noted
    exact (inside capture noted).trans List.infix_append_left
  · rintro r s met entry _ _ takes ⟨gone, toOpened, _⟩ ⟨text, reach, inside⟩
    refine ⟨text, reach.remember entry.1 r, List.forall_mem_cons.mpr ⟨?_, inside⟩⟩
    -- The group has met the end of what is taken so far.
    have whole : text = gone ++ met := reach.text_eq.trans (toOpened.trans takes).text_eq.symm
    rw [whole, Capture.text, ← takes.text_eq]
    exact (List.suffix_append gone met).isInfix

/-- A group that has met something has met something for good. -/
theorem hasMet_of_mem_ways {pattern : Pattern} {index : Nat} {p q : Place}
    (mem : q ∈ pattern.ways blind p) (before : p.HasMet index) : q.HasMet index :=
  holds_captures_of_mem_ways (fun captures => ∃ capture ∈ captures, capture.index = index)
    (fun _ _ _ _ _ ⟨capture, noted, same⟩ => ⟨capture, List.mem_cons_of_mem _ noted, same⟩)
    (List.Subset.refl _) mem before

/-- A group that no way can pass by meets something on every way. -/
theorem hasMet_of_alwaysMeets {pattern : Pattern} {index : Nat}
    (always : pattern.alwaysMeets index = true) {p q : Place} (mem : q ∈ pattern.ways blind p) :
    q.HasMet index := by
  induction pattern generalizing p q with
  | seq a b first second =>
      obtain ⟨r, toR, toQ⟩ := List.mem_flatMap.mp mem
      rcases Bool.or_eq_true_iff.mp always with ofA | ofB
      · exact hasMet_of_mem_ways toQ (first ofA toR)
      · exact second ofB toQ
  | alt a b first second =>
      obtain ⟨ofA, ofB⟩ := Bool.and_eq_true_iff.mp always
      rcases List.mem_append.mp mem with mem | mem
      · exact first ofA mem
      · exact second ofB mem
  | group number body ih =>
      obtain ⟨r, toR, remembered⟩ := List.mem_map.mp mem
      rw [← remembered]
      rcases Bool.or_eq_true_iff.mp always with here | inside
      · exact ⟨_, List.mem_cons_self, eq_of_beq here⟩
      · exact (ih inside toR).remember
  | repeated least most eager body ih =>
      obtain ⟨needed, inside⟩ := Bool.and_eq_true_iff.mp always
      obtain ⟨r, toR, toQ⟩ := List.mem_flatMap.mp mem
      -- The first of the repetitions that have to be there passes the group.
      obtain ⟨n, leastEq⟩ : ∃ n, least = n + 1 := by
        cases least with
        | zero => cases needed
        | succ n => exact ⟨n, rfl⟩
      rw [leastEq, exactly] at toR
      obtain ⟨first, toFirst, onward⟩ := List.mem_flatMap.mp toR
      have met := ih inside toFirst
      exact holds_of_mem_further hasMet_of_mem_ways eager _ toQ
        (holds_of_mem_exactly hasMet_of_mem_ways n onward met)
  | _ => cases always

end Pattern

end FilmQuery
