/-
# Occurrences in respaced texts

When the sweep of a text comes to a gap it finds nothing there, if the pattern shuns blanks, and
goes on behind the gap.  So the sweeps of two texts that differ in their gaps come by the same
places, and as the first ways from there are the same, they find the same occurrences
(`occurrences_respaced`): they take the same pieces, and their groups say the same.
-/
import FilmQuery.Proofs.Pattern.Respaced

namespace FilmQuery

open Respacing (text)
open Text (isBlank)

/-- The place with nothing remembered. -/
def Place.bare (p : Place) : Place := { p with captures := [] }

/-- An occurrence takes the pieces between two places of one of two texts. -/
structure Occurrence.Spans (r : Respacing) (respaced : Bool) (i j : Nat) (m : Occurrence) :
    Prop where
  start : m.start = (Respacing.text respaced (r.take i)).length
  stop : m.stop = (Respacing.text respaced (r.take j)).length
  text_eq : m.text = Respacing.text respaced ((r.drop i).take (j - i))

/-- Occurrences in two texts that take the same pieces and whose groups say the same. -/
structure Occurrence.Shares (r : Respacing) (i j : Nat) (m n : Occurrence) : Prop where
  order : i < j
  within : j ≤ r.length
  before : m.Spans r false i j
  after : n.Spans r true i j
  groupCount : n.groupCount = m.groupCount
  captures : List.Forall₂ SaysAlike m.captures n.captures

/-- The same occurrence in two texts. -/
def Occurrence.Respaced (r : Respacing) (m n : Occurrence) : Prop := ∃ i j, Shares r i j m n

/-- The place behind an occurrence. -/
theorem Occurrence.Spans.past_taken {r : Respacing} {respaced : Bool} {i j : Nat} {m : Occurrence}
    {p : Place} (spans : m.Spans r respaced i j) (here : p.At r respaced i) (order : i < j)
    (within : j ≤ r.length) : (p.past (Pattern.taken [m] - 1 + 1)).At r respaced j := by
  have length : Pattern.taken [m] = (Respacing.text respaced ((r.drop i).take (j - i))).length := by
    show m.stop - m.start = _
    rw [spans.stop, spans.start, Respacing.length_between (Nat.le_of_lt order)]
  have further : 0 < Pattern.taken [m] := by
    have lt : (Respacing.text respaced (r.take i)).length <
        (Respacing.text respaced (r.take j)).length :=
      Respacing.length_text_take_lt order within
    show 0 < m.stop - m.start
    rw [spans.stop, spans.start]
    omega
  have pieces : ((r.drop i).take (j - i)).length = j - i := by
    rw [List.length_take, List.length_drop]
    omega
  have onward := here.past (List.take_append_drop (j - i) (r.drop i)).symm
  rwa [← length, pieces, Nat.add_sub_cancel' (Nat.le_of_lt order), ← Nat.sub_add_cancel further]
    at onward

namespace Pattern

/-- Whether a pattern is found alike in texts that differ in their gaps, if the respacing keeps some
phrases. -/
def isTidy (phrases : List (List Char × List Char)) (pattern : Pattern) : Bool :=
  pattern.respaces phrases false && pattern.endsOutside && pattern.shuns false &&
    pattern.standsAlone

variable {pattern : Pattern} {r : Respacing} {phrases : List (List Char × List Char)} {k : Nat}
  {p q p' q' : Place} {respaced : Bool}

theorem occurrenceBetween_shares {i j : Nat} (here : p.At r false i) (there : q.At r true i)
    (here' : p'.At r false j) (there' : q'.At r true j) (further : p.position < p'.position)
    (said : List.Forall₂ SaysAlike p'.said q'.said) :
    Occurrence.Shares r i j (pattern.occurrenceBetween p p') (pattern.occurrenceBetween q q') where
  order := (here.position_lt_iff here').mp further
  within := here'.within
  before := ⟨here.position, here'.position,
    here.between here' (Nat.le_of_lt ((here.position_lt_iff here').mp further))⟩
  after := ⟨there.position, there'.position,
    there.between there' (Nat.le_of_lt ((here.position_lt_iff here').mp further))⟩
  groupCount := rfl
  captures := said

/-- At a place that two texts share, a tidy pattern occurs in both or in neither. -/
theorem occurrencesAt_shares (keeps : r.Keeps phrases) (words : Respacing.areWords phrases = true)
    (tidy : pattern.isTidy phrases = true) (both : p.Respaced r q) (here : p.At r false k)
    (there : q.At r true k) :
    (pattern.occurrencesAt true p = [] ∧ pattern.occurrencesAt true q = []) ∨
      ∃ m n j, pattern.occurrencesAt true p = [m] ∧ pattern.occurrencesAt true q = [n] ∧
        Occurrence.Shares r k j m n := by
  simp only [isTidy, Bool.and_eq_true] at tidy
  obtain ⟨⟨⟨respaces, ends⟩, _⟩, alone⟩ := tidy
  have solid := solid_of_standsAlone alone
  have ways := ways_respaced keeps words respaces both fun none => by cases none
  have all {p : Place} (outside : p.isOutside = true) :
      (pattern.ways true p).filter Place.isOutside = pattern.ways true p :=
    List.filter_eq_self.mpr fun s toS => isOutside_of_endsOutside ends outside toS
  rw [all both.outside, all both.outside'] at ways
  have onward {s : Place} (way : s ∈ pattern.ways true p) : p.position < s.position :=
    position_lt_of_mem_ways solid way
  rw [occurrencesAt_eq solid, occurrencesAt_eq solid]
  revert onward ways
  generalize pattern.ways true p = places, pattern.ways true q = places'
  intro ways onward
  cases ways with
  | nil => exact .inl ⟨rfl, rfl⟩
  | @cons s t _ _ first _ =>
      obtain ⟨j, here', there'⟩ := first.shared
      exact .inr ⟨_, _, j, rfl, rfl, occurrenceBetween_shares here there here' there'
        (onward List.mem_cons_self) first.said⟩

section Sweep

/-- Sweeps a text from a place on. -/
def sweepFrom (pattern : Pattern) (p : Place) : List Occurrence :=
  pattern.sweep true 0 p.previous p.position p.rest

theorem sweep_eq_sweepFrom {skip : Nat} (enough : skip ≤ p.rest.length) :
    pattern.sweep true skip p.previous p.position p.rest = pattern.sweepFrom (p.past skip) := by
  induction skip generalizing p with
  | zero => rw [p.past_zero, sweepFrom]
  | succ skip ih =>
      cases rest : p.rest with
      | nil =>
          rw [rest] at enough
          cases enough
      | cons c others =>
          have later : skip ≤ (p.past 1).rest.length := by
            rw [Place.past_one rest]
            rw [rest] at enough
            exact Nat.le_of_succ_le_succ enough
          have onward := ih later
          rw [← Place.past_succ rest skip] at onward
          rw [← onward, Place.past_one rest, sweep, if_neg (Nat.succ_ne_zero _),
            Nat.add_sub_cancel]

/-- The sweep goes on behind what was found, or behind the next character. -/
theorem sweepFrom_cons {c : Char} {others : List Char} (rest : p.rest = c :: others)
    {found : List Occurrence}
    (here : pattern.occurrencesAt true p.bare = found) :
    pattern.sweepFrom p = found ++ pattern.sweepFrom (p.past (taken found - 1 + 1)) := by
  have within := taken_occurrencesAt_le true pattern p.bare
  have enough : taken found - 1 ≤ (p.past 1).rest.length := by
    rw [Place.past_one rest]
    rw [here] at within
    simp only [Place.bare, rest, List.length_cons] at within ⊢
    omega
  have onward : pattern.sweep true (taken found - 1) _ _ _ = _ := sweep_eq_sweepFrom enough
  rw [Place.bare, rest] at here
  rw [Place.past_succ rest, ← onward, sweepFrom, Place.past_one rest, rest, sweep, if_pos rfl, here]

/-- Blanks are passed by. -/
theorem sweepFrom_blanks (shuns : pattern.shuns false = true)
    (solid : ¬ pattern.Spells true []) {gap behind : List Char}
    (rest : p.rest = gap ++ behind) (blanks : ∀ c ∈ gap, isBlank c = true) :
    pattern.sweepFrom p = pattern.sweepFrom (p.past gap.length) := by
  induction gap generalizing p with
  | nil => rw [List.length_nil, p.past_zero]
  | cons c gap ih =>
      obtain ⟨here, later⟩ := List.forall_mem_cons.mp blanks
      have onward : (p.past 1).rest = gap ++ behind := by rw [Place.past_one rest]; rfl
      have blank : p.bare.rest.head?.any isBlank = true := by
        show p.rest.head?.any isBlank = true
        rw [rest]
        exact here
      have nowhere : pattern.occurrencesAt true p.bare = [] := by
        rw [occurrencesAt_eq solid, ways_eq_nil_of_shuns shuns blank]
        rfl
      rw [sweepFrom_cons rest nowhere, List.length_cons, Place.past_succ rest gap.length,
        ← ih onward later]
      rfl

/-- From the same place on, two texts are swept alike. -/
theorem sweepFrom_respaced (keeps : r.Keeps phrases)
    (words : Respacing.areWords phrases = true) (tidy : pattern.isTidy phrases = true)
    (here : p.At r false k) (there : q.At r true k) :
    List.Forall₂ (Occurrence.Respaced r) (pattern.sweepFrom p) (pattern.sweepFrom q) := by
  have checks := tidy
  simp only [isTidy, Bool.and_eq_true] at checks
  obtain ⟨⟨_, shuns⟩, alone⟩ := checks
  have solid := solid_of_standsAlone alone
  -- The induction is on the number of pieces to come.
  generalize size : r.length - k = n
  induction n using Nat.strongRecOn generalizing k p q with
  | ind n ih =>
      have onward {j : Nat} (further : k < j) {p' q' : Place} (here' : p'.At r false j)
          (there' : q'.At r true j) :
          List.Forall₂ (Occurrence.Respaced r) (pattern.sweepFrom p') (pattern.sweepFrom q') := by
        have within := here'.within
        exact ih (r.length - j) (by omega) here' there' rfl
      cases split : r.drop k with
      | nil =>
          have nothing {respaced : Bool} {p : Place} (here : p.At r respaced k) :
              pattern.sweepFrom p = [] := by
            rw [sweepFrom, here.rest, split, Respacing.text_nil, sweep, if_pos rfl,
              occurrencesAt_end solid]
          rw [nothing here, nothing there]
          exact .nil
      | cons piece back =>
          have rest {respaced : Bool} {p : Place} (here : p.At r respaced k) :
              p.rest = piece.text respaced ++ text respaced back := by
            rw [here.rest, split, Respacing.text_cons]
          cases piece with
          | gap before after isGap isGap' =>
              rw [sweepFrom_blanks shuns solid (rest here) (Piece.isGap_text rfl false).blank,
                sweepFrom_blanks shuns solid (rest there) (Piece.isGap_text rfl true).blank]
              exact onward (Nat.lt_succ_self k) (here.next split) (there.next split)
          | visible c isVisible =>
              have bare : p.bare.At r false k :=
                ⟨here.within, here.rest, here.previous, here.position⟩
              have bare' : q.bare.At r true k :=
                ⟨there.within, there.rest, there.previous, there.position⟩
              have outside : p.bare.isOutside = true := by
                apply Place.isOutside_of_next
                show p.rest.head?.any isBlank = false
                rw [rest here]
                exact isVisible
              rcases occurrencesAt_shares keeps words tidy ⟨⟨k, bare, bare'⟩, outside, .nil⟩ bare
                bare' with ⟨found, found'⟩ | ⟨m, n, j, found, found', shares⟩
              · rw [sweepFrom_cons (rest here) found, sweepFrom_cons (rest there) found']
                exact onward (Nat.lt_succ_self k) (here.next split) (there.next split)
              · rw [sweepFrom_cons (rest here) found, sweepFrom_cons (rest there) found']
                exact .cons ⟨k, j, shares⟩ (onward shares.order
                  (shares.before.past_taken here shares.order shares.within)
                  (shares.after.past_taken there shares.order shares.within))

end Sweep

/-- In two texts that differ in their gaps a tidy pattern has the same occurrences. -/
theorem occurrences_respaced (keeps : r.Keeps phrases)
    (words : Respacing.areWords phrases = true) (tidy : pattern.isTidy phrases = true) :
    List.Forall₂ (Occurrence.Respaced r) (pattern.occurrences true (text false r))
      (pattern.occurrences true (text true r)) := by
  have atStart (respaced : Bool) : (⟨none, 0, text respaced r, []⟩ : Place).At r respaced 0 :=
    ⟨Nat.zero_le _, rfl, rfl, rfl⟩
  exact sweepFrom_respaced keeps words tidy (atStart false) (atStart true)

end Pattern

end FilmQuery
