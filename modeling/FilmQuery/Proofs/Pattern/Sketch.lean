/-
# Sketches of texts

Phrases leave open the case of letters, which digits there are, and how far blanks and digits go
on.  A sketch draws a text without these, one stroke after the other.  A pattern can be sought in a
sketch as in a text (`sketch`), and what is found there is found in every text that is drawn by the
sketch (`occurrences_of_isMetBy`).  A sketch does not always settle what happens in the text; then
the outcome is unclear, and nothing is claimed.  In particular a repetition takes a run as a whole,
and it can only be said that none of the places within the run leads on.
-/
import FilmQuery.Proofs.Pattern.Finding
import FilmQuery.Proofs.Pattern.Ink
import FilmQuery.Proofs.Pattern.Runs

namespace FilmQuery

open Text

/-- A stroke of a sketch: a single character, or a run of them that are drawn alike. -/
structure Stroke where
  ink : Ink
  isRun : Bool
  deriving DecidableEq, Repr

/-- Whether a text is drawn by a stroke. -/
structure Stroke.Draws (stroke : Stroke) (text : List Char) : Prop where
  nonempty : text ≠ []
  ink : ∀ c ∈ text, stroke.ink.Draws c
  single : stroke.isRun = false → text.length = 1

/-- What has been noted for a group in a sketch: its number, and the strokes from one up to
another. -/
abbrev Note := Nat × Nat × Nat

/-- What the group has met in the text. -/
def Note.met (texts : List (List Char)) (note : Note) : Nat × List Char :=
  (note.1, ((texts.drop note.2.1).take (note.2.2 - note.2.1)).flatten)

/-- A place in a sketch. -/
inductive Spot where
  /-- Between two strokes: whether a word comes just before, how many strokes have gone by, which
  are still to come, and what has been noted on the way, the last first. -/
  | between (afterWord : Bool) (gone : Nat) (ahead : List Stroke) (notes : List Note)
  /-- Somewhere within a run. -/
  | within (ink : Ink)
  deriving DecidableEq, Repr

/-- What becomes of a search in a sketch. -/
inductive Outcome where
  | found (spot : Spot)
  | nowhere
  | unclear
  deriving DecidableEq, Repr

/-- Tries something else if the first leads nowhere. -/
def Outcome.orElse (first : Outcome) (second : Unit → Outcome) : Outcome :=
  match first with
  | .nowhere => second ()
  | other => other

namespace Spot

/-- How the next character is drawn. -/
def next? : Spot → Option Ink
  | .between _ _ ahead _ => ahead.head?.map Stroke.ink
  | .within ink => some ink

/-- Whether a word comes just before. -/
def afterWord : Spot → Bool
  | .between word _ _ _ => word
  | .within ink => ink.isWord

/-- Whether a word begins or ends here. -/
def isBoundary (s : Spot) : Bool := s.afterWord != s.next?.any Ink.isWord

/-- Notes what a group has met, if that can be told. -/
def note? (index : Nat) : (opened closed : Spot) → Option Spot
  | .between _ start _ _, .between word gone ahead notes =>
    some (.between word gone ahead ((index, start, gone) :: notes))
  | _, .within ink => some (.within ink)
  | _, _ => none

/-- Goes on behind the next stroke, if it is a single character that passes the test. -/
def take (test : Ink → Option Bool) (onward : Spot → Outcome) : Spot → Outcome
  | .within ink => if test ink = some false then .nowhere else .unclear
  | .between _ _ [] _ => .nowhere
  | .between _ gone (stroke :: ahead) notes =>
    match test stroke.ink with
    | none => .unclear
    | some false => .nowhere
    | some true =>
      if stroke.isRun then .unclear
      else onward (.between stroke.ink.isWord (gone + 1) ahead notes)

/-- Goes on behind as many characters as pass the test; there have to be `least`, one at most. -/
def takeMany (test : Ink → Option Bool) (least : Nat) (onward : Spot → Outcome) (s : Spot) :
    Outcome :=
  match s.next?.elim (some false) test, s with
  | some false, s => if least = 0 then onward s else .nowhere
  | some true, .between _ gone (⟨ink, true⟩ :: ahead) notes =>
    if least ≤ 1 ∧ (ahead.head?.elim (some false) fun stroke => test stroke.ink) = some false then
      (onward (.between ink.isWord (gone + 1) ahead notes)).orElse fun _ =>
        if onward (.within ink) = .nowhere then (if least = 0 then onward s else .nowhere)
        else .unclear
    else .unclear
  | _, _ => .unclear

end Spot

namespace Pattern

/-- Goes on behind a step taken a number of times. -/
def sketchExactly (step : (Spot → Outcome) → Spot → Outcome) :
    Nat → (Spot → Outcome) → Spot → Outcome
  | 0, onward => onward
  | n + 1, onward => step (sketchExactly step n onward)

/-- Which strokes a pattern takes that takes one character. -/
def inkTest? : Pattern → Option (Ink → Option Bool)
  | .char c => some (Ink.isChar? c)
  | .oneOf [.ofClass k] => some fun ink => some (ink.isOfClass k)
  | _ => none

/-- Goes on behind a pattern in a sketch, as `seek` does in a text. -/
def sketch : Pattern → (Spot → Outcome) → Spot → Outcome
  | .nothing, onward, s => onward s
  | .char c, onward, s => s.take (Ink.isChar? c) onward
  | .oneOf members, onward, s =>
    match (oneOf members).inkTest? with
    | some test => s.take test onward
    | none => .unclear
  | .boundary, onward, s => if s.isBoundary then onward s else .nowhere
  | .seq a b, onward, s => a.sketch (b.sketch onward) s
  | .alt a b, onward, s => (a.sketch onward s).orElse fun _ => b.sketch onward s
  | .group index body, onward, s =>
    body.sketch (fun r => (s.note? index r).elim .unclear onward) s
  | .absent body, onward, s =>
    match body.sketch .found s with
    | .found _ => .nowhere
    | .nowhere => onward s
    | .unclear => .unclear
  | .repeated least most eager body, onward, s =>
    match most, eager with
    | none, true =>
      match body.inkTest? with
      | some test => s.takeMany test least onward
      | none => .unclear
    | some bound, true =>
      if bound ≤ least then sketchExactly body.sketch least onward s
      else if bound = least + 1 then
        sketchExactly body.sketch least
          (fun r => (body.sketch onward r).orElse fun _ => onward r) s
      else .unclear
    | _, false => .unclear
  | .any, _, _ | .atStart, _, _ | .atEnd, _, _ => .unclear

end Pattern

/-- A place of a text that is drawn in strokes is one that a spot of the sketch marks. Within a run
it is only known how the next character is drawn. -/
def Spot.Marks (texts : List (List Char)) : Spot → Place → Prop
  | .between word gone ahead notes, p =>
    p.previous.any Text.isWord = word ∧
      List.Forall₂ Stroke.Draws ahead (texts.drop gone) ∧
        p.rest = (texts.drop gone).flatten ∧
          p.position = (texts.take gone).flatten.length ∧
            p.captures.map (fun capture => (capture.index, capture.text)) =
              notes.map (Note.met texts)
  | .within ink, p =>
    p.previous.any Text.isWord = ink.isWord ∧ ∃ c rest, p.rest = c :: rest ∧ ink.Draws c

/-- What becomes of a search in a sketch becomes of a search in the text. -/
def Outcome.Holds (texts : List (List Char)) : Outcome → Option Place → Prop
  | .found s, result => ∃ p, result = some p ∧ s.Marks texts p
  | .nowhere, result => result = none
  | .unclear, _ => True

section Soundness

variable {texts : List (List Char)} {s : Spot} {p : Place}

/-- What is to be done at a spot is what is to be done at the places that it marks. -/
def Follows (texts : List (List Char)) (onward : Spot → Outcome) (go : Pattern.Onward) : Prop :=
  ∀ s p, s.Marks texts p → (onward s).Holds texts (go p)

theorem Outcome.Holds.orElse {first : Outcome} {second : Unit → Outcome} {result : Option Place}
    {other : Unit → Option Place} (here : first.Holds texts result)
    (there : (second ()).Holds texts (other ())) :
    (first.orElse second).Holds texts (Pattern.orElse result other) := by
  cases first with
  | found spot =>
      obtain ⟨q, rfl, marks⟩ := here
      exact ⟨q, rfl, marks⟩
  | nowhere =>
      obtain rfl : result = none := here
      exact there
  | unclear => trivial

namespace Spot.Marks

theorem previous (marks : s.Marks texts p) : p.previous.any Text.isWord = s.afterWord := by
  cases s with
  | between word gone ahead notes => exact marks.1
  | within ink => exact marks.1

theorem exists_next (marks : s.Marks texts p) {ink : Ink} (next : s.next? = some ink) :
    ∃ c rest, p.rest = c :: rest ∧ ink.Draws c := by
  cases s with
  | within ink =>
      cases next
      exact marks.2
  | between word gone ahead notes =>
      obtain ⟨_, drawn, rest, _⟩ := marks
      generalize texts.drop gone = coming at drawn rest
      cases drawn with
      | nil => cases next
      | @cons stroke text _ _ ofText _ =>
          cases next
          obtain ⟨c, others, rfl⟩ := List.exists_cons_of_ne_nil ofText.nonempty
          exact ⟨c, _, rest, ofText.ink c List.mem_cons_self⟩

theorem rest_eq_nil (marks : s.Marks texts p) (none : s.next? = none) : p.rest = [] := by
  cases s with
  | within ink => cases none
  | between word gone ahead notes =>
      obtain ⟨_, drawn, rest, _⟩ := marks
      rw [rest]
      cases ahead with
      | nil => rw [List.forall₂_nil_left_iff.mp drawn, List.flatten_nil]
      | cons stroke ahead => cases none

/-- What is told of the next stroke is so of the next character. -/
theorem any_head? (marks : s.Marks texts p) {told : Ink → Option Bool} {test : Char → Bool}
    (tells : ∀ ink c, ink.Draws c → ∀ b, told ink = some b → test c = b) {b : Bool}
    (next : s.next?.elim (some false) told = some b) : p.rest.head?.any test = b := by
  cases nextEq : s.next? with
  | none =>
      rw [nextEq] at next
      rw [marks.rest_eq_nil nextEq, ← Option.some.inj next]
      rfl
  | some ink =>
      obtain ⟨c, rest, split, drawn⟩ := marks.exists_next nextEq
      rw [nextEq] at next
      rw [split, List.head?_cons, Option.any_some]
      exact tells ink c drawn b next

theorem isBoundary (marks : s.Marks texts p) : p.isBoundary = s.isBoundary := by
  have next : p.rest.head?.any Text.isWord = s.next?.any Ink.isWord := by
    have tells (ink : Ink) (c : Char) (drawn : ink.Draws c) (b : Bool)
        (told : some ink.isWord = some b) : Text.isWord c = b := by
      rw [Ink.isWord_eq drawn]
      exact Option.some.inj told
    exact marks.any_head? tells (by cases s.next? <;> rfl)
  rw [Place.isBoundary, Spot.isBoundary, marks.previous, next]

/-- The text of the next stroke, and the place behind it. -/
theorem exists_text {word : Bool} {gone : Nat} {stroke : Stroke} {ahead : List Stroke}
    {notes : List Note} (marks : (between word gone (stroke :: ahead) notes).Marks texts p) :
    ∃ text, stroke.Draws text ∧ p.rest = text ++ (texts.drop (gone + 1)).flatten ∧
      (between stroke.ink.isWord (gone + 1) ahead notes).Marks texts (p.past text.length) := by
  obtain ⟨_, drawn, rest, position, captures⟩ := marks
  cases dropped : texts.drop gone with
  | nil =>
      rw [dropped] at drawn
      cases drawn
  | cons text coming =>
      rw [dropped] at drawn rest
      obtain ⟨here, later⟩ := List.forall₂_cons.mp drawn
      have onward : texts.drop (gone + 1) = coming := by
        rw [← List.drop_drop, dropped, List.drop_one, List.tail_cons]
      have taken : texts.take (gone + 1) = texts.take gone ++ [text] := by
        rw [List.take_add, dropped, List.take_one, List.head?_cons, Option.toList_some]
      obtain ⟨c, last⟩ : ∃ c, text.getLast? = some c :=
        ⟨_, List.getLast?_eq_getLast_of_ne_nil here.nonempty⟩
      have behind : p.rest.take text.length = text := by
        rw [rest, List.flatten_cons, List.take_left]
      refine ⟨text, here, by rw [rest, onward, List.flatten_cons], ?_, ?_, ?_, ?_, captures⟩
      · rw [Place.past, behind, last]
        exact Ink.isWord_eq (here.ink c (List.mem_of_getLast? last))
      · rwa [onward]
      · rw [Place.past, rest, onward, List.flatten_cons, List.drop_left]
      · rw [Place.past, position, taken, List.flatten_append, List.length_append,
          List.flatten_singleton]

/-- A place within a run. -/
theorem within_of_run {ink : Ink} {text behind : List Char} (drawn : ∀ c ∈ text, ink.Draws c)
    (split : p.rest = text ++ behind) {n : Nat} (positive : 0 < n) (inRange : n < text.length) :
    (within ink).Marks texts (p.past n) := by
  have before : (p.rest.take n).getLast? = some text[n - 1] := by
    rw [split, List.take_append_of_le_length (Nat.le_of_lt inRange), List.getLast?_eq_getElem?,
      List.length_take, Nat.min_eq_left (Nat.le_of_lt inRange), List.getElem?_take_of_lt (by omega),
      List.getElem?_eq_getElem]
  refine ⟨?_, text[n], text.drop (n + 1) ++ behind, ?_, drawn _ (List.getElem_mem _)⟩
  · rw [Place.past, before]
    exact Ink.isWord_eq (drawn _ (List.getElem_mem _))
  · rw [Place.past, split, List.drop_append_of_le_length (Nat.le_of_lt inRange),
      List.drop_eq_getElem_cons inRange, List.cons_append]

end Spot.Marks

/-- A test of characters is told by a test of strokes. -/
def Tells (told : Ink → Option Bool) (test : Char → Bool) : Prop :=
  ∀ ink c, ink.Draws c → ∀ b, told ink = some b → test c = b

section Taking

variable {told : Ink → Option Bool} {test : Char → Bool} {onward : Spot → Outcome}
  {go : Pattern.Onward}

theorem Spot.Marks.take (tells : Tells told test) (follows : Follows texts onward go)
    (marks : s.Marks texts p) :
    (s.take told onward).Holds texts (Pattern.seekChar test go p) := by
  have dead (next : s.next?.elim (some false) told = some false) :
      Pattern.seekChar test go p = none :=
    Pattern.seekChar_eq_none (marks.any_head? tells next)
  cases s with
  | within ink =>
      rw [Spot.take]
      split
      next refused => exact dead refused
      next => trivial
  | between word gone ahead notes =>
      cases ahead with
      | nil => exact dead rfl
      | cons stroke ahead =>
          rw [Spot.take]
          split
          next => trivial
          next refused => exact dead refused
          next accepted =>
            split
            next => trivial
            next single =>
              obtain ⟨text, drawn, split, behind⟩ := marks.exists_text
              have length := drawn.single (Bool.not_eq_true _ |>.mp single)
              obtain ⟨c, rfl⟩ := List.length_eq_one_iff.mp length
              have passes := tells _ c (drawn.ink c List.mem_cons_self) true accepted
              rw [Pattern.seekChar_cons split, if_pos passes]
              exact follows _ _ behind

/-- A repetition takes a run as far as it goes. -/
theorem Spot.Marks.takeMany (tells : Tells told test) (follows : Follows texts onward go)
    (least : Nat) (marks : s.Marks texts p) :
    (s.takeMany told least onward).Holds texts (Pattern.seekMany test least go p) := by
  unfold Spot.takeMany
  split
  next refused =>
    have stops := marks.any_head? tells refused
    split
    next none =>
      rw [none, Pattern.seekMany, Pattern.seekExactly, Pattern.seekFurther_eq stops]
      exact follows _ _ marks
    next some =>
      obtain ⟨n, rfl⟩ := Nat.exists_eq_succ_of_ne_zero some
      exact Pattern.seekChar_eq_none stops
  next word gone ink ahead notes accepted =>
    split
    next settled =>
      obtain ⟨few, refused⟩ := settled
      obtain ⟨text, drawn, split, behind⟩ := marks.exists_text
      have passes (c : Char) (mem : c ∈ text) : test c = true :=
        tells ink c (drawn.ink c mem) true accepted
      have stops : (texts.drop (gone + 1)).flatten.head?.any test = false := by
        have next : (Spot.between ink.isWord (gone + 1) ahead notes).next?.elim (some false) told =
            some false := by
          rw [← refused]
          cases ahead <;> rfl
        have headless := behind.any_head? tells next
        rwa [Place.past, split, List.drop_left] at headless
      have there := follows _ _ behind
      cases outcome : onward (.between ink.isWord (gone + 1) ahead notes) with
      | unclear => trivial
      | found spot =>
          rw [outcome] at there
          obtain ⟨q, found, marked⟩ := there
          exact ⟨q, Pattern.seekMany_run few drawn.nonempty split passes stops found, marked⟩
      | nowhere =>
          rw [outcome] at there
          show (if _ then _ else _ : Outcome).Holds texts _
          split
          next never =>
            -- Neither behind the run nor within it does anything lead on.
            have dead : ∀ n < text.length, go (p.past (n + 1)) = none := by
              intro n inRange
              by_cases last : n + 1 = text.length
              · rw [last]
                exact there
              · have within := follows _ _
                  (Spot.Marks.within_of_run drawn.ink split (Nat.succ_pos n) (by omega))
                rw [never] at within
                exact within
            rw [Pattern.seekMany_run_eq few drawn.nonempty split passes stops dead]
            split
            next => exact follows _ _ marks
            next => rfl
          next => trivial
    next => trivial
  next => trivial

end Taking

/-- What lies between two strokes. -/
theorem take_flatten_drop {α : Type} (texts : List (List α)) (start stop : Nat) :
    (texts.drop start).flatten.take
        ((texts.take stop).flatten.length - (texts.take start).flatten.length) =
      ((texts.drop start).take (stop - start)).flatten := by
  by_cases order : start ≤ stop
  · obtain ⟨n, rfl⟩ := Nat.exists_eq_add_of_le order
    rw [List.take_add, List.flatten_append, List.length_append, Nat.add_sub_cancel_left,
      Nat.add_sub_cancel_left]
    conv_lhs => rw [← List.take_append_drop n (texts.drop start), List.flatten_append]
    rw [List.take_append_drop, List.take_left]
  · have shorter : (texts.take stop).flatten.length ≤ (texts.take start).flatten.length := by
      obtain ⟨n, rfl⟩ := Nat.exists_eq_add_of_lt (Nat.lt_of_not_le order)
      rw [Nat.add_assoc, List.take_add, List.flatten_append, List.length_append]
      exact Nat.le_add_right _ _
    rw [Nat.sub_eq_zero_of_le shorter, Nat.sub_eq_zero_of_le (by omega), List.take_zero,
      List.take_zero, List.flatten_nil]

theorem Spot.Marks.note {opened closed : Spot} {p q : Place} (marksOpened : opened.Marks texts p)
    (marksClosed : closed.Marks texts q) {index : Nat} {noted : Spot}
    (note : opened.note? index closed = some noted) : noted.Marks texts (p.remember index q) := by
  cases closed with
  | within ink =>
      cases opened <;> cases note <;> exact marksClosed
  | between word gone ahead notes =>
      cases opened with
      | within ink => cases note
      | between _ start _ _ =>
          cases note
          obtain ⟨previous, drawn, rest, position, captures⟩ := marksClosed
          obtain ⟨_, _, restOpened, positionOpened, _⟩ := marksOpened
          refine ⟨previous, drawn, rest, position, ?_⟩
          rw [Place.remember, List.map_cons, captures, List.map_cons, Capture.text, restOpened,
            position, positionOpened, take_flatten_drop]
          rfl

theorem Pattern.follows_sketchExactly {step : (Spot → Outcome) → Spot → Outcome}
    {seek : Onward → Onward}
    (alike : ∀ onward go, Follows texts onward go → Follows texts (step onward) (seek go)) (n : Nat)
    {onward : Spot → Outcome} {go : Onward} (follows : Follows texts onward go) :
    Follows texts (sketchExactly step n onward) (seekExactly seek n go) := by
  induction n with
  | zero => exact follows
  | succ n ih => exact alike _ _ ih

theorem Pattern.tells_isChar? (c : Char) :
    Tells (Ink.isChar? c) fun d => if true then sameLetter c d else c == d :=
  fun _ _ drawn _ told => Ink.sameLetter_eq drawn told

/-- A pattern that takes one character takes what its test of strokes tells. -/
theorem Pattern.exists_test {pattern : Pattern} {told : Ink → Option Bool}
    (leaf : pattern.inkTest? = some told) :
    ∃ test, Tells told test ∧ pattern.seek true = seekChar test := by
  unfold inkTest? at leaf
  split at leaf
  next c =>
    cases leaf
    exact ⟨_, tells_isChar? c, rfl⟩
  next k =>
    cases leaf
    refine ⟨isIn true [.ofClass k], ?_, rfl⟩
    intro ink c drawn b told
    rw [← Option.some.inj told, ← Ink.has_eq k drawn]
    simp [isIn]
  next => cases leaf

/-- What is found in a sketch is found in the text. -/
theorem Pattern.follows_sketch (pattern : Pattern) {onward : Spot → Outcome} {go : Onward}
    (follows : Follows texts onward go) :
    Follows texts (pattern.sketch onward) (pattern.seek true go) := by
  induction pattern generalizing onward go with
  | nothing => exact follows
  | char c => exact fun s p marks => marks.take (Pattern.tells_isChar? c) follows
  | oneOf members =>
      intro s p marks
      rw [sketch]
      split
      next told leaf =>
        obtain ⟨test, tells, same⟩ := exists_test leaf
        rw [same]
        exact marks.take tells follows
      next => trivial
  | any | atStart | atEnd => exact fun _ _ _ => trivial
  | boundary =>
      intro s p marks
      rw [sketch, seek, marks.isBoundary]
      split
      · exact follows s p marks
      · rfl
  | seq a b first second => exact first (second follows)
  | alt a b first second =>
      exact fun s p marks => (first follows s p marks).orElse (second follows s p marks)
  | group index body ih =>
      intro s p marks
      apply ih ?_ s p marks
      intro r q marked
      show ((s.note? index r).elim .unclear onward).Holds texts (go (p.remember index q))
      cases noted : s.note? index r with
      | none => trivial
      | some spot => exact follows spot _ (marks.note marked noted)
  | absent body ih =>
      intro s p marks
      have inside : Follows texts .found some := fun s p marks => ⟨p, rfl, marks⟩
      have here := ih inside s p marks
      rw [sketch, seek]
      cases outcome : body.sketch .found s with
      | unclear => trivial
      | found spot =>
          rw [outcome] at here
          obtain ⟨q, found, _⟩ := here
          rw [found]
          rfl
      | nowhere =>
          rw [outcome] at here
          rw [here]
          exact follows s p marks
  | repeated least most eager body ih =>
      cases eager with
      | false => exact fun _ _ _ => by cases most <;> trivial
      | true =>
          cases most with
          | none =>
              intro s p marks
              rw [sketch]
              split
              next told leaf =>
                obtain ⟨test, tells, same⟩ := exists_test leaf
                rw [seek, same]
                exact marks.takeMany tells follows least
              next => trivial
          | some bound =>
              intro s p marks
              rw [sketch, seek]
              split
              next all =>
                apply follows_sketchExactly (fun _ _ => ih) least ?_ s p marks
                intro r q marked
                show (onward r).Holds texts (seekFurther _ true (bound - least) go q)
                rw [Nat.sub_eq_zero_of_le all]
                exact follows r q marked
              next =>
                split
                next once =>
                  apply follows_sketchExactly (fun _ _ => ih) least ?_ s p marks
                  intro r q marked
                  show Outcome.Holds texts _ (seekFurther _ true (bound - least) go q)
                  rw [once, Nat.add_sub_cancel_left, seekFurther_one]
                  exact (ih follows r q marked).orElse (follows r q marked)
                next => trivial

end Soundness

namespace Pattern

/-- Whether a pattern is met in a sketch from its beginning to its end and notes for its groups what
is given. -/
def isMetBy (pattern : Pattern) (strokes : List Stroke) (notes : List Note) : Bool :=
  match pattern.sketch .found (.between false 0 strokes []) with
  | .found (.between _ _ [] noted) => noted == notes
  | _ => false

/-- A pattern that is met in a sketch occurs once in every text that is drawn so, and the occurrence
is the whole text. -/
theorem occurrences_of_isMetBy {pattern : Pattern} (solid : ¬ pattern.Spells true [])
    {strokes : List Stroke} {notes : List Note} (met : pattern.isMetBy strokes notes = true)
    {texts : List (List Char)} (drawn : List.Forall₂ Stroke.Draws strokes texts) :
    pattern.occurrences true texts.flatten =
      [⟨0, texts.flatten.length, texts.flatten, pattern.groupCount,
        notes.map (Note.met texts)⟩] := by
  have inside : Follows texts .found some := fun s p marks => ⟨p, rfl, marks⟩
  have begins : (Spot.between false 0 strokes []).Marks texts ⟨none, 0, texts.flatten, []⟩ :=
    ⟨rfl, drawn, rfl, rfl, rfl⟩
  have result := pattern.follows_sketch inside _ _ begins
  unfold isMetBy at met
  split at met
  next word gone noted found =>
    rw [found] at result
    obtain ⟨q, sought, _, nothing, _, position, captures⟩ := result
    have all : texts.take gone = texts := by
      rw [← List.take_append_drop gone texts, List.forall₂_nil_left_iff.mp nothing, List.append_nil,
        List.take_take, Nat.min_self]
    have first : (pattern.ways true ⟨none, 0, texts.flatten, []⟩).head? = some q := by
      rw [← sought, seek_eq]
      cases pattern.ways true ⟨none, 0, texts.flatten, []⟩ <;> rfl
    rw [all] at position
    apply occurrences_eq_singleton solid ?_ rfl rfl
    rw [occurrencesAt_eq solid, first, Option.map_some, Option.toList_some, occurrenceBetween,
      captures, position, Nat.sub_zero, List.take_length, eq_of_beq met]
  next => cases met

end Pattern

end FilmQuery
