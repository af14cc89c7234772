/-
# Patterns do not look beyond what they cannot take

A pattern that never asks for an end of the text cannot tell a text from a longer one, if the
character at which they part is one that it cannot take and that is no part of a word.  Places of
the two texts are `Alike`, and the ways of the pattern from alike places lead to alike places, in
the same order.  The same is true of a text that stands further on in a longer one.
-/
import FilmQuery.Pattern.Order
import Mathlib.Data.List.Forall2

namespace FilmQuery

open Text (isWord sameLetter)

namespace Pattern

/-- Whether some part of a pattern can take a character. -/
def takes (blind : Bool) : Pattern → Char → Bool
  | .char c, d => if blind then sameLetter c d else c == d
  | .oneOf members, d => isIn blind members d
  | .any, d => d != '\n'
  | .seq a b, d | .alt a b, d => a.takes blind d || b.takes blind d
  | .group _ body, d | .absent body, d | .repeated _ _ _ body, d => body.takes blind d
  | .nothing, _ | .boundary, _ | .atStart, _ | .atEnd, _ => false

/-- Whether a pattern asks for no end of the text. -/
def isInner : Pattern → Bool
  | .atStart | .atEnd => false
  | .seq a b | .alt a b => a.isInner && b.isInner
  | .group _ body | .absent body | .repeated _ _ _ body => body.isInner
  | _ => true

/-- A pattern goes no further than to the beginning of `tail`: no part of it can take the first
character, which is no part of a word. -/
structure EndsAt (blind : Bool) (pattern : Pattern) (tail : List Char) : Prop where
  inner : pattern.isInner = true
  refused : ∀ c ∈ tail.head?, pattern.takes blind c = false
  wordless : tail.head?.any isWord = false

/-- A pattern that asks for no end of the text ends where the text does. -/
theorem EndsAt.nil {blind : Bool} {pattern : Pattern} (inner : pattern.isInner = true) :
    EndsAt blind pattern [] :=
  ⟨inner, by simp, rfl⟩

/-- A pattern of two parts ends where both of them do. -/
theorem EndsAt.seq {blind : Bool} {tail : List Char} {a b : Pattern}
    (ends : EndsAt blind (.seq a b) tail) : EndsAt blind a tail ∧ EndsAt blind b tail := by
  obtain ⟨inner, refused, wordless⟩ := ends
  simp only [isInner, takes, Bool.and_eq_true, Bool.or_eq_false_iff] at inner refused
  exact ⟨⟨inner.1, fun c head => (refused c head).1, wordless⟩,
    ⟨inner.2, fun c head => (refused c head).2, wordless⟩⟩

end Pattern

namespace Place

/-- What the captures of a place say. -/
def said (p : Place) : List (Nat × List Char) :=
  p.captures.map fun capture => (capture.index, capture.text)

/-- The second place is the first one in a longer text, with `distance` more characters gone by and
`tail` behind what was to come. -/
structure Alike (distance : Nat) (tail : List Char) (p q : Place) : Prop where
  previous : q.previous.any isWord = p.previous.any isWord
  position : q.position = p.position + distance
  rest : q.rest = p.rest ++ tail
  said : q.said = p.said

variable {distance : Nat} {tail : List Char} {p q : Place}

theorem Alike.take {test : Char → Bool} (alike : Alike distance tail p q)
    (refused : ∀ c ∈ tail.head?, test c = false) :
    List.Forall₂ (Alike distance tail) (p.take test) (q.take test) := by
  obtain ⟨_, position, rest, said⟩ := alike
  unfold Place.take
  cases restP : p.rest with
  | nil =>
      rw [restP, List.nil_append] at rest
      rw [rest]
      cases tail with
      | nil => exact .nil
      | cons c tail => simp [refused c rfl]
  | cons c restP' =>
      rw [restP, List.cons_append] at rest
      rw [rest]
      cases taken : test c
      · simp [taken]
      · simp only [taken, if_true]
        exact .cons ⟨rfl, by simp [position, Nat.add_right_comm], rfl, said⟩ .nil

theorem Alike.isBoundary (alike : Alike distance tail p q)
    (wordless : tail.head?.any isWord = false) : q.isBoundary = p.isBoundary := by
  have head : q.rest.head?.any isWord = p.rest.head?.any isWord := by
    rw [alike.rest]
    cases p.rest with
    | nil => exact wordless
    | cons c rest => rfl
  rw [Place.isBoundary, Place.isBoundary, alike.previous, head]

/-- What a group meets is not changed by what comes behind. -/
theorem Alike.remember {index : Nat} {p' q' : Place} (opened : Alike distance tail p q)
    (closed : Alike distance tail p' q') (ahead : p.Ahead p') :
    Alike distance tail (p.remember index p') (q.remember index q') where
  previous := closed.previous
  position := closed.position
  rest := closed.rest
  said := by
    have length := ahead.advance_add_length
    have text : (p.rest ++ tail).take (p'.position - p.position) =
        p.rest.take (p'.position - p.position) :=
      List.take_append_of_le_length (by omega)
    have saidBefore := closed.said
    simp only [Place.said] at saidBefore
    simp only [Place.said, Place.remember, List.map_cons, Capture.text, opened.rest,
      opened.position, closed.position, Nat.add_sub_add_right, text]
    exact congrArg _ saidBefore

end Place

namespace Pattern

variable {distance : Nat} {tail : List Char} {p q : Place}

open Place (Alike)

section Steps

variable {related : Place → Place → Prop} {step step' : Place → List Place}

/-- Steps that lead from related places to related ones do so when they are repeated. -/
theorem exactly_rel
    (steps : ∀ {p q}, related p q → List.Forall₂ related (step p) (step' q))
    (n : Nat) (both : related p q) :
    List.Forall₂ related (exactly step n p) (exactly step' n q) := by
  induction n generalizing p q with
  | zero => exact .cons both .nil
  | succ n ih => exact List.rel_flatMap (steps both) fun _ _ => ih

theorem further_rel
    (steps : ∀ {p q}, related p q → List.Forall₂ related (step p) (step' q))
    (moves : ∀ {p q r s}, related p q → related r s →
      (p.position < r.position ↔ q.position < s.position))
    (eager : Bool) (limit : Nat) (both : related p q) :
    List.Forall₂ related (further step eager limit p) (further step' eager limit q) := by
  induction limit generalizing p q with
  | zero => exact .cons both .nil
  | succ limit ih =>
      have longer := List.rel_flatMap (steps both) fun r s (onward : related r s) => by
        show List.Forall₂ related
          (if p.position < r.position then further step eager limit r else [r])
          (if q.position < s.position then further step' eager limit s else [s])
        simp only [moves both onward]
        split
        · exact ih onward
        · exact .cons onward .nil
      cases eager
      · exact .cons both longer
      · exact List.rel_append longer (.cons both .nil)

end Steps

/-- A repetition is exhausted when the text is, so a higher limit changes nothing. -/
theorem further_eq_of_length_lt {step : Place → List Place}
    (ahead : ∀ {p q}, q ∈ step p → p.Ahead q) (eager : Bool) {limit more : Nat}
    (enough : p.rest.length < limit) (le : limit ≤ more) :
    further step eager more p = further step eager limit p := by
  induction limit generalizing p more with
  | zero => omega
  | succ limit ih =>
      obtain ⟨more, rfl⟩ : ∃ n, more = n + 1 := ⟨more - 1, by omega⟩
      have longer : ((step p).flatMap fun r =>
            if p.position < r.position then further step eager more r else [r]) =
          (step p).flatMap fun r =>
            if p.position < r.position then further step eager limit r else [r] := by
        refine List.flatMap_congr fun r mem => ?_
        have length := (ahead mem).advance_add_length
        split
        · exact ih (by omega) (by omega)
        · rfl
      simp only [further, longer]

/-- The repetitions allowed in the longer text are enough, and no more come of them. -/
theorem further_allowance {blind : Bool} {body : Pattern} (alike : Alike distance tail p q)
    (eager : Bool) (least : Nat) (most : Option Nat) :
    further (body.ways blind) eager (allowance least most q) p =
      further (body.ways blind) eager (allowance least most p) p := by
  cases most with
  | some bound => rfl
  | none =>
      apply further_eq_of_length_lt ahead_of_mem_ways eager (Nat.lt_succ_self _)
      simp [allowance, alike.rest]

/-- The ways of a pattern are the same in a longer text. -/
theorem ways_alike {blind : Bool} {pattern : Pattern} (ends : EndsAt blind pattern tail)
    (alike : Alike distance tail p q) :
    List.Forall₂ (Alike distance tail) (pattern.ways blind p) (pattern.ways blind q) := by
  induction pattern generalizing p q with
  | nothing => exact .cons alike .nil
  | char c => exact alike.take ends.refused
  | oneOf members => exact alike.take ends.refused
  | any => exact alike.take ends.refused
  | atStart => exact absurd ends.inner Bool.false_ne_true
  | atEnd => exact absurd ends.inner Bool.false_ne_true
  | boundary =>
      simp only [ways, alike.isBoundary ends.wordless]
      split
      · exact .cons alike .nil
      · exact .nil
  | seq a b first second =>
      exact List.rel_flatMap (first ends.seq.1 alike) fun _ _ => second ends.seq.2
  | alt a b first second =>
      have parts := EndsAt.seq (a := a) (b := b) ⟨ends.inner, ends.refused, ends.wordless⟩
      exact List.rel_append (first parts.1 alike) (second parts.2 alike)
  | group index body ih =>
      have inside := ih ⟨ends.inner, ends.refused, ends.wordless⟩ alike
      have ahead := (List.forall₂_and_left _ _).mpr
        ⟨fun r (mem : r ∈ body.ways blind p) => ahead_of_mem_ways mem, inside⟩
      rw [ways, ways, List.forall₂_map_left_iff, List.forall₂_map_right_iff]
      exact ahead.imp fun r s onward => alike.remember onward.2 onward.1
  | absent body ih =>
      have inside := ih ⟨ends.inner, ends.refused, ends.wordless⟩ alike
      have empty : (body.ways blind q).isEmpty = (body.ways blind p).isEmpty := by
        rw [Bool.eq_iff_iff, List.isEmpty_iff_length_eq_zero, List.isEmpty_iff_length_eq_zero,
          inside.length_eq]
      simp only [ways, empty]
      split
      · exact .cons alike .nil
      · exact .nil
  | repeated least most eager body ih =>
      have inside {p q : Place} (alike : Alike distance tail p q) :=
        ih ⟨ends.inner, ends.refused, ends.wordless⟩ alike
      have moves {p q r s : Place} (alike : Alike distance tail p q)
          (onward : Alike distance tail r s) :
          p.position < r.position ↔ q.position < s.position := by
        rw [alike.position, onward.position, Nat.add_lt_add_iff_right]
      refine List.rel_flatMap (exactly_rel inside least alike) fun r s onward => ?_
      have longer := further_rel inside moves eager (allowance least most s) onward
      rwa [further_allowance onward] at longer

end Pattern

end FilmQuery
