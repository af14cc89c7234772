/-
# Patterns at blanks

What a pattern does with blanks can mostly be told from its parts.  Some lead nowhere where a blank
comes next (`shuns`), some end behind a blank (`endsBlank`), and some end within no gap, if they
begin within none (`endsOutside`).  A repetition of blanks may stop at any blank of a gap, but
outside of the gap there are only its end and its beginning (`filter_ways_blanks`).
-/
import FilmQuery.Proofs.Pattern.Runs
import FilmQuery.Proofs.Pattern.Spellings

namespace FilmQuery

open Text (isBlank isWord isDigit phraseChars sameLetter)

namespace Place

variable {p : Place}

/-- Whether a place is not within a gap. -/
def isOutside (p : Place) : Bool := !(p.previous.any isBlank && p.rest.head?.any isBlank)

theorem isOutside_of_previous (visible : p.previous.any isBlank = false) : p.isOutside = true := by
  rw [isOutside, visible, Bool.false_and, Bool.not_false]

theorem isOutside_of_next (visible : p.rest.head?.any isBlank = false) : p.isOutside = true := by
  rw [isOutside, visible, Bool.and_false, Bool.not_false]

theorem past_zero (p : Place) : p.past 0 = p := by simp [past]

theorem take_eq_nil {test : Char → Bool} (stops : p.rest.head?.any test = false) :
    p.take test = [] := by
  unfold take
  cases rest : p.rest with
  | nil => rfl
  | cons c others =>
      rw [rest, List.head?_cons, Option.any_some] at stops
      simp [stops]

theorem take_eq_singleton {test : Char → Bool} {c : Char} {others : List Char}
    (rest : p.rest = c :: others) (passes : test c = true) : p.take test = [p.past 1] := by
  rw [past_one rest, take, rest]
  simp [passes]

theorem next_of_isOutside_eq_false (inside : p.isOutside = false) :
    p.rest.head?.any isBlank = true := by
  rw [isOutside, Bool.not_eq_false', Bool.and_eq_true] at inside
  exact inside.2

end Place

namespace Pattern

/-- Whether a pattern takes a single character that is no blank. -/
def inks : Pattern → Bool
  | .char c => phraseChars.contains c && !isBlank c
  | .oneOf [.ofClass k] => k != .blank
  | _ => false

/-- Whether a pattern leads nowhere where a blank comes next, or at most stays there if `still`. -/
def shuns (still : Bool) : Pattern → Bool
  | .nothing | .boundary | .absent _ => still
  | .seq a b => a.shuns false || a.shuns true && b.shuns still
  | .alt a b => a.shuns still && b.shuns still
  | .group _ body => body.shuns still
  | .repeated least _ _ body => body.shuns false && (still || least != 0)
  | other => other.inks

/-- Whether a pattern ends behind a blank; `fresh` says whether it begins behind one. -/
def endsBlank (fresh : Bool) : Pattern → Bool
  | .nothing | .boundary | .absent _ => fresh
  | .oneOf members => oneOf members == blank
  | .seq a b => b.endsBlank (a.endsBlank fresh)
  | .alt a b => a.endsBlank fresh && b.endsBlank fresh
  | .group _ body => body.endsBlank fresh
  | .repeated least _ _ body => (fresh || least != 0) && body.endsBlank fresh
  | _ => false

/-- Whether a pattern does not end within a gap, if it does not begin within one. -/
def endsOutside : Pattern → Bool
  | .nothing | .boundary | .absent _ => true
  | .seq a b => b.endsOutside && (a.endsOutside || b.shuns false)
  | .alt a b => a.endsOutside && b.endsOutside
  | .group _ body | .repeated _ _ _ body => body.endsOutside
  | other => other.inks

variable {pattern : Pattern} {p q : Place}

theorem exists_test_of_inks (inks : pattern.inks = true) :
    ∃ test : Char → Bool, (∀ p, pattern.ways true p = p.take test) ∧
      ∀ c, isBlank c = true → test c = false := by
  unfold Pattern.inks at inks
  split at inks
  next c =>
    obtain ⟨phrase, visible⟩ := Bool.and_eq_true_iff.mp inks
    refine ⟨sameLetter c, fun p => rfl, fun d blank => Bool.eq_false_iff.mpr fun same => ?_⟩
    rw [← Text.isBlank_face, Text.face_eq_of_sameLetter (List.contains_iff_mem.mp phrase) same]
      at blank
    rw [blank] at visible
    cases visible
  next k =>
    refine ⟨isIn true [.ofClass k], fun p => rfl, fun d blank => ?_⟩
    have wordless := Text.isWord_eq_false_of_isBlank blank
    have noDigit : isDigit d = false := Bool.eq_false_iff.mpr fun digit => by
      rw [Text.isBlank_eq_false_of_isDigit digit] at blank
      cases blank
    cases k with
    | digit => simp [isIn, CharClass.has, noDigit]
    | blank => cases inks
    | visible => simp [isIn, CharClass.has, blank]
    | word => simp [isIn, CharClass.has, wordless]
  next => cases inks

/-- Behind a visible character a pattern is outside of gaps. -/
theorem of_mem_ways_of_inks (inks : pattern.inks = true) (way : q ∈ pattern.ways true p) :
    p.rest.head?.any isBlank = false ∧ q.previous.any isBlank = false := by
  obtain ⟨test, waysEq, refuses⟩ := exists_test_of_inks inks
  rw [waysEq] at way
  obtain ⟨c, passes, takes, _⟩ := Place.exists_takes_of_mem_take way
  have visible : isBlank c = false := Bool.eq_false_iff.mpr fun blank => by
    rw [refuses c blank] at passes
    cases passes
  rw [takes.rest, takes.previous]
  exact ⟨visible, visible⟩

theorem eq_of_mem_ways_anchor {holds : Prop} [Decidable holds]
    (way : q ∈ if holds then [p] else []) : q = p := by
  split at way
  · exact List.mem_singleton.mp way
  · cases way

/-- Where a blank comes next, a pattern that shuns blanks leads nowhere or stays there. -/
theorem stays_of_shuns {still : Bool} (shuns : pattern.shuns still = true)
    (blank : p.rest.head?.any isBlank = true) (way : q ∈ pattern.ways true p) :
    still = true ∧ q.rest = p.rest := by
  induction pattern generalizing still p q with
  | nothing => exact ⟨shuns, List.mem_singleton.mp way ▸ rfl⟩
  | boundary | absent body => exact ⟨shuns, eq_of_mem_ways_anchor way ▸ rfl⟩
  | char c | oneOf members | any | atStart | atEnd =>
      rw [(of_mem_ways_of_inks shuns way).1] at blank
      cases blank
  | seq a b first second =>
      obtain ⟨r, toR, toQ⟩ := List.mem_flatMap.mp way
      rcases Bool.or_eq_true_iff.mp shuns with here | both
      · cases (first here blank toR).1
      · obtain ⟨stays, later⟩ := Bool.and_eq_true_iff.mp both
        have same := (first stays blank toR).2
        rw [← same] at blank ⊢
        exact second later blank toQ
  | alt a b first second =>
      obtain ⟨ofA, ofB⟩ := Bool.and_eq_true_iff.mp shuns
      exact (List.mem_append.mp way).elim (first ofA blank) (second ofB blank)
  | group index body ih =>
      obtain ⟨r, toR, rfl⟩ := List.mem_map.mp way
      have inside := ih shuns blank toR
      exact inside
  | repeated least most eager body ih =>
      obtain ⟨inside, allowed⟩ := Bool.and_eq_true_iff.mp shuns
      have nowhere : body.ways true p = [] :=
        List.eq_nil_iff_forall_not_mem.mpr fun r toR => by cases (ih inside blank toR).1
      obtain ⟨r, toR, toQ⟩ := List.mem_flatMap.mp way
      cases least with
      | succ n =>
          rw [exactly, nowhere] at toR
          cases toR
      | zero =>
          obtain rfl := List.mem_singleton.mp toR
          refine ⟨by simpa using allowed, ?_⟩
          generalize allowance 0 most r = limit at toQ
          cases limit with
          | zero => rw [List.mem_singleton.mp toQ]
          | succ limit =>
              rcases mem_further_succ.mp toQ with rfl | ⟨s, toS, _⟩
              · rfl
              · rw [nowhere] at toS
                cases toS

/-- A pattern that shuns blanks leads nowhere from within a gap. -/
theorem ways_eq_nil_of_shuns (shuns : pattern.shuns false = true)
    (blank : p.rest.head?.any isBlank = true) : pattern.ways true p = [] :=
  List.eq_nil_iff_forall_not_mem.mpr fun _ way => by cases (stays_of_shuns shuns blank way).1

/-- A pattern that ends behind a blank does so. -/
theorem previous_of_endsBlank {fresh : Bool} (ends : pattern.endsBlank fresh = true)
    (before : fresh = true → p.previous.any isBlank = true) (way : q ∈ pattern.ways true p) :
    q.previous.any isBlank = true := by
  induction pattern generalizing fresh p q with
  | nothing => exact List.mem_singleton.mp way ▸ before ends
  | boundary | absent body => exact eq_of_mem_ways_anchor way ▸ before ends
  | char c | any | atStart | atEnd => cases ends
  | oneOf members =>
      rw [eq_of_beq ends] at way
      obtain ⟨c, isBlank, takes, _⟩ := Place.exists_takes_of_mem_take way
      rw [takes.previous]
      simpa [isIn, CharClass.has] using isBlank
  | seq a b first second =>
      obtain ⟨r, toR, toQ⟩ := List.mem_flatMap.mp way
      exact second ends (fun ofA => first ofA before toR) toQ
  | alt a b first second =>
      obtain ⟨ofA, ofB⟩ := Bool.and_eq_true_iff.mp ends
      exact (List.mem_append.mp way).elim (first ofA before) (second ofB before)
  | group index body ih =>
      obtain ⟨r, toR, rfl⟩ := List.mem_map.mp way
      have inside := ih ends before toR
      exact inside
  | repeated least most eager body ih =>
      obtain ⟨some, ofBody⟩ := Bool.and_eq_true_iff.mp ends
      have keeps {r s : Place} (toS : s ∈ body.ways true r) (_ : r.previous.any isBlank = true) :
          s.previous.any isBlank = true := ih ofBody (fun _ => ‹_›) toS
      obtain ⟨r, toR, toQ⟩ := List.mem_flatMap.mp way
      refine holds_of_mem_further keeps eager _ toQ ?_
      cases least with
      | zero => exact List.mem_singleton.mp toR ▸ before (by simpa using some)
      | succ n =>
          obtain ⟨s, toS, onward⟩ := List.mem_flatMap.mp toR
          exact holds_of_mem_exactly keeps n onward (ih ofBody before toS)

/-- A pattern that ends outside of gaps does so, if it begins there. -/
theorem isOutside_of_endsOutside (ends : pattern.endsOutside = true) (outside : p.isOutside = true)
    (way : q ∈ pattern.ways true p) : q.isOutside = true := by
  induction pattern generalizing p q with
  | nothing => exact List.mem_singleton.mp way ▸ outside
  | boundary | absent body => exact eq_of_mem_ways_anchor way ▸ outside
  | char c | oneOf members | any | atStart | atEnd =>
      exact Place.isOutside_of_previous (of_mem_ways_of_inks ends way).2
  | seq a b first second =>
      obtain ⟨r, toR, toQ⟩ := List.mem_flatMap.mp way
      obtain ⟨ofB, apart⟩ := Bool.and_eq_true_iff.mp ends
      refine second ofB ?_ toQ
      by_contra inside
      rcases Bool.or_eq_true_iff.mp apart with ofA | shuns
      · exact inside (first ofA outside toR)
      · have blank := Place.next_of_isOutside_eq_false ((Bool.not_eq_true _).mp inside)
        rw [ways_eq_nil_of_shuns shuns blank] at toQ
        cases toQ
  | alt a b first second =>
      obtain ⟨ofA, ofB⟩ := Bool.and_eq_true_iff.mp ends
      exact (List.mem_append.mp way).elim (first ofA outside) (second ofB outside)
  | group index body ih =>
      obtain ⟨r, toR, rfl⟩ := List.mem_map.mp way
      have inside := ih ends outside toR
      exact inside
  | repeated least most eager body ih =>
      have keeps {r s : Place} (toS : s ∈ body.ways true r) (outside : r.isOutside = true) :
          s.isOutside = true := ih ends outside toS
      obtain ⟨r, toR, toQ⟩ := List.mem_flatMap.mp way
      exact holds_of_mem_further keeps eager _ toQ (holds_of_mem_exactly keeps least toR outside)

section Gaps

variable {gap behind : List Char}

theorem ways_blank (p : Place) : blank.ways true p = p.take isBlank := by
  rw [blank, ways]
  congr 1
  funext c
  simp [isIn, CharClass.has]

/-- A repetition of blanks takes the next one and goes on, or stays where it is. -/
theorem further_blanks_cons {c : Char} {others : List Char} (rest : p.rest = c :: others)
    (isBlank : isBlank c = true) (limit : Nat) :
    further (blank.ways true) true (limit + 1) p =
      further (blank.ways true) true limit (p.past 1) ++ [p] := by
  have taken : blank.ways true p = [p.past 1] := by
    rw [ways_blank, Place.take_eq_singleton rest isBlank]
  have onward : p.position < (p.past 1).position := Nat.lt_succ_self _
  simp only [further, taken, List.flatMap_singleton, if_pos onward, if_true]

theorem further_blanks_nil (stops : p.rest.head?.any isBlank = false) (limit : Nat) :
    further (blank.ways true) true limit p = [p] := by
  have nothing : blank.ways true p = [] := by rw [ways_blank, Place.take_eq_nil stops]
  cases limit with
  | zero => rfl
  | succ limit => simp [further, nothing]

theorem inside_past_one {c : Char} (rest : p.rest = c :: gap ++ behind)
    (blanks : ∀ d ∈ c :: gap, isBlank d = true) : ¬ ((p.past 1).isOutside ∧ gap ≠ []) := by
  rintro ⟨outside, some⟩
  obtain ⟨d, others, rfl⟩ := List.exists_cons_of_ne_nil some
  have here := blanks c (by simp)
  have next := blanks d (by simp)
  simp [Place.isOutside, Place.past_one rest, here, next] at outside

/-- A repetition of blanks gets out of a gap only at the end, and before it begins. -/
theorem filter_further_blanks (rest : p.rest = gap ++ behind)
    (blanks : ∀ c ∈ gap, isBlank c = true) (stops : behind.head?.any isBlank = false) {limit : Nat}
    (enough : gap.length ≤ limit) :
    (further (blank.ways true) true limit p).filter Place.isOutside =
      if p.isOutside ∧ gap ≠ [] then [p.past gap.length, p] else [p.past gap.length] := by
  induction gap generalizing p limit with
  | nil =>
      have next : p.rest.head?.any isBlank = false := rest ▸ stops
      simp [further_blanks_nil next, Place.isOutside_of_next next, Place.past_zero]
  | cons c gap ih =>
      obtain ⟨here, later⟩ := List.forall_mem_cons.mp blanks
      obtain ⟨limit, rfl⟩ : ∃ n, limit = n + 1 := ⟨limit - 1, by simp at enough; omega⟩
      have onward : (p.past 1).rest = gap ++ behind := by rw [Place.past_one rest]; rfl
      rw [further_blanks_cons rest here, List.filter_append,
        ih onward later (Nat.le_of_succ_le_succ enough), if_neg (inside_past_one rest blanks),
        List.length_cons, Place.past_succ rest gap.length]
      cases outside : p.isOutside <;> simp [outside]

/-- A repetition of blanks that begins outside of a gap takes the whole of it, or nothing. -/
theorem filter_ways_blanks {least : Nat} (few : least ≤ 1) (outside : p.isOutside = true)
    (rest : p.rest = gap ++ behind) (blanks : ∀ c ∈ gap, isBlank c = true)
    (stops : behind.head?.any isBlank = false) :
    ((repeated least none true blank).ways true p).filter Place.isOutside =
      (if gap = [] then [] else [p.past gap.length]) ++ if least = 0 then [p] else [] := by
  have limit (p : Place) : allowance least none p = p.rest.length + 1 := rfl
  rw [ways]
  rcases Nat.le_one_iff_eq_zero_or_eq_one.mp few with rfl | rfl
  · have enough : gap.length ≤ allowance 0 none p := by
      rw [limit, rest, List.length_append]
      omega
    rw [exactly, List.flatMap_singleton, filter_further_blanks rest blanks stops enough]
    cases gap with
    | nil => simp [Place.past_zero]
    | cons c gap => simp [outside]
  · cases gap with
    | nil =>
        have nothing : blank.ways true p = [] := by
          rw [ways_blank, Place.take_eq_nil (rest ▸ stops)]
        simp [exactly, nothing]
    | cons c gap =>
        obtain ⟨here, later⟩ := List.forall_mem_cons.mp blanks
        have onward : (p.past 1).rest = gap ++ behind := by rw [Place.past_one rest]; rfl
        have taken : blank.ways true p = [p.past 1] := by
          rw [ways_blank, Place.take_eq_singleton rest here]
        have enough : gap.length ≤ allowance 1 none (p.past 1) := by
          rw [limit, onward, List.length_append]
          omega
        simp only [exactly, taken, List.flatMap_singleton]
        rw [filter_further_blanks onward later stops enough, if_neg (inside_past_one rest blanks),
          ← Place.past_succ rest gap.length]
        simp

end Gaps

end Pattern

end FilmQuery
