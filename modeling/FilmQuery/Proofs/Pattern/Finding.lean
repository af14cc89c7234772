/-
# Where occurrences are found

An occurrence of a pattern that the sweep of a text finds is one at some place of the text
(`exists_way_of_mem_occurrences`), so its text is spelled by the pattern and its groups have met
texts that their bodies spell.

For a pattern that cannot take nothing there is one occurrence at a place, if any: the first way
from there (`occurrencesAt_eq`).  The sweep finds it unless it is inside of another occurrence when
it comes by (`mem_occurrences_of_free`).
-/
import FilmQuery.Proofs.Pattern.Language

namespace FilmQuery

/-- The place in a text in front of which some characters have gone by. -/
def Place.inText (text : List Char) (position : Nat) : Place :=
  ⟨(text.take position).getLast?, position, text.drop position, []⟩

theorem Place.inText_append (gone rest : List Char) :
    Place.inText (gone ++ rest) gone.length = ⟨gone.getLast?, gone.length, rest, []⟩ := by
  rw [inText, List.take_left, List.drop_left]

namespace Pattern

variable {blind : Bool} {pattern : Pattern}

theorem exists_way_of_mem_occurrencesAt {p : Place} {m : Occurrence}
    (mem : m ∈ pattern.occurrencesAt blind p) :
    ∃ q ∈ pattern.ways blind p, m = pattern.occurrenceBetween p q := by
  unfold occurrencesAt at mem
  split at mem
  next => simp at mem
  next q found =>
    have way := (mem_ways_of_seek (fun selected => by simpa using selected) found).1
    split at mem
    next =>
      rcases List.mem_cons.mp mem with rfl | mem
      · exact ⟨q, way, rfl⟩
      · obtain ⟨r, second, rfl⟩ := Option.map_eq_some_iff.mp (Option.mem_toList.mp mem)
        have selects {s t : Place}
            (selected : (if s.position = p.position then none else some s) = some t) : s = t := by
          split at selected
          · simp at selected
          · simpa using selected
        exact ⟨r, (mem_ways_of_seek selects second).1, rfl⟩
    next => exact ⟨q, way, List.mem_singleton.mp mem⟩

/-- What the sweep finds are occurrences at places that it comes by. -/
theorem exists_place_of_mem_sweep {m : Occurrence} (gone rest : List Char) (skip : Nat)
    (mem : m ∈ pattern.sweep blind skip gone.getLast? gone.length rest) :
    ∃ position ≤ (gone ++ rest).length,
      m ∈ pattern.occurrencesAt blind (.inText (gone ++ rest) position) := by
  induction rest generalizing gone skip with
  | nil =>
      rw [sweep] at mem
      split at mem
      next =>
        rw [← Place.inText_append] at mem
        exact ⟨gone.length, by simp, mem⟩
      next => simp at mem
  | cons c rest ih =>
      have later (skip : Nat)
          (mem : m ∈ pattern.sweep blind skip (some c) (gone.length + 1) rest) :
          ∃ position ≤ (gone ++ c :: rest).length,
            m ∈ pattern.occurrencesAt blind (.inText (gone ++ c :: rest) position) := by
        have onward := ih (gone ++ [c]) skip
        rw [List.getLast?_append, List.length_append, List.append_assoc] at onward
        exact onward mem
      rw [sweep] at mem
      split at mem
      next =>
        rcases List.mem_append.mp mem with mem | mem
        · rw [← Place.inText_append] at mem
          exact ⟨gone.length, by simp, mem⟩
        · exact later _ mem
      next => exact later _ mem

/-- An occurrence in a text is a way from the place where it starts. -/
theorem exists_way_of_mem_occurrences {text : List Char} {m : Occurrence}
    (mem : m ∈ pattern.occurrences blind text) :
    ∃ q ∈ pattern.ways blind (.inText text m.start),
      m ∈ pattern.occurrencesAt blind (.inText text m.start) ∧
        m = pattern.occurrenceBetween (.inText text m.start) q := by
  obtain ⟨position, _, found⟩ := exists_place_of_mem_sweep [] text 0 mem
  rw [List.nil_append] at found
  obtain ⟨q, way, between⟩ := exists_way_of_mem_occurrencesAt found
  have start : m.start = position := congrArg Occurrence.start between
  rw [start]
  exact ⟨q, way, found, between⟩

/-- The text of an occurrence is spelled by the pattern, and what its groups have met by them. -/
theorem spells_of_mem_occurrences {text : List Char} {m : Occurrence}
    (mem : m ∈ pattern.occurrences blind text) :
    pattern.Spells blind m.text ∧
      ∀ capture ∈ m.captures, ∃ body, (capture.1, body) ∈ pattern.groups ∧
        body.Spells blind capture.2 := by
  obtain ⟨q, way, _, between⟩ := exists_way_of_mem_occurrences mem
  rw [between]
  constructor
  · obtain ⟨taken, spelled, takes⟩ := exists_spells_of_mem_ways way
    rw [takes.text_eq] at spelled
    exact spelled
  · intro capture noted
    obtain ⟨memory, inMemory, rfl⟩ := List.mem_map.mp noted
    exact noted_of_mem_ways (List.Subset.refl _) way (by simp [Place.inText]) memory inMemory

/-- What a group has met is part of the text of the occurrence. -/
theorem infix_of_mem_occurrences {text : List Char} {m : Occurrence}
    (mem : m ∈ pattern.occurrences blind text) :
    ∀ capture ∈ m.captures, capture.2 <:+: m.text := by
  obtain ⟨q, way, _, between⟩ := exists_way_of_mem_occurrences mem
  obtain ⟨taken, takes, inside⟩ := exists_takes_of_mem_ways way rfl
  rw [takes.text_eq] at inside
  rw [between]
  intro capture noted
  obtain ⟨memory, inMemory, rfl⟩ := List.mem_map.mp noted
  exact inside memory inMemory

/-- A group that no way of the pattern can pass by has met something in every occurrence. -/
theorem exists_lookup_of_mem_occurrences {text : List Char} {m : Occurrence}
    (mem : m ∈ pattern.occurrences blind text) {index : Nat}
    (always : pattern.alwaysMeets index = true) :
    ∃ met, m.captures.lookup index = some met ∧ (index, met) ∈ m.captures := by
  obtain ⟨q, way, _, between⟩ := exists_way_of_mem_occurrences mem
  obtain ⟨capture, noted, numbered⟩ := hasMet_of_alwaysMeets always way
  have listed : (index, capture.text) ∈ m.captures := by
    rw [between, ← numbered]
    exact List.mem_map_of_mem noted
  cases found : m.captures.lookup index with
  | none =>
      have other := List.lookup_eq_none_iff.mp found _ listed
      rw [bne_self_eq_false] at other
      cases other
  | some met =>
      obtain ⟨before, behind, split, _⟩ := List.lookup_eq_some_iff.mp found
      exact ⟨met, rfl, split ▸ List.mem_append_right _ List.mem_cons_self⟩

section Solid

/-- Behind a way of a pattern that cannot take nothing, some characters more have gone by. -/
theorem position_lt_of_mem_ways (solid : ¬ pattern.Spells blind []) {p q : Place}
    (way : q ∈ pattern.ways blind p) : p.position < q.position := by
  obtain ⟨text, spelled, takes⟩ := exists_spells_of_mem_ways way
  have taken : text ≠ [] := by
    rintro rfl
    exact solid spelled
  have length := List.length_pos_iff.mpr taken
  rw [takes.position]
  omega

/-- A pattern that cannot take nothing has at most one occurrence at a place: its first way. -/
theorem occurrencesAt_eq (solid : ¬ pattern.Spells blind []) (p : Place) :
    pattern.occurrencesAt blind p =
      ((pattern.ways blind p).head?.map (pattern.occurrenceBetween p)).toList := by
  have onward {q : Place} (way : q ∈ pattern.ways blind p) : q.position ≠ p.position :=
    Nat.ne_of_gt (position_lt_of_mem_ways solid way)
  rw [occurrencesAt, seek_eq]
  generalize pattern.ways blind p = places at onward ⊢
  cases places with
  | nil => rfl
  | cons q rest =>
      rw [List.findSome?_cons, List.head?_cons]
      simp only [onward List.mem_cons_self, if_false]
      rfl

theorem occurrencesAt_end (solid : ¬ pattern.Spells blind []) (previous : Option Char)
    (position : Nat) : pattern.occurrencesAt blind ⟨previous, position, [], []⟩ = [] := by
  rw [occurrencesAt_eq solid]
  cases ways : pattern.ways blind ⟨previous, position, [], []⟩ with
  | nil => rfl
  | cons q rest =>
      have way : q ∈ pattern.ways blind ⟨previous, position, [], []⟩ := by
        rw [ways]
        exact List.mem_cons_self
      have advance := (ahead_of_mem_ways way).advance_add_length
      have further := position_lt_of_mem_ways solid way
      simp only [List.length_nil] at advance further
      omega

/-- Behind an occurrence that reaches to the end there is nothing to find. -/
theorem sweep_length_eq_nil (solid : ¬ pattern.Spells blind []) (previous : Option Char)
    (position : Nat) (text : List Char) :
    pattern.sweep blind text.length previous position text = [] := by
  induction text generalizing previous position with
  | nil => rw [List.length_nil, sweep, occurrencesAt_end solid, ite_self]
  | cons c rest ih =>
      rw [List.length_cons, sweep, if_neg (Nat.succ_ne_zero _), Nat.add_sub_cancel]
      exact ih (some c) (position + 1)

/-- An occurrence at the beginning that takes the whole text is the only one. -/
theorem occurrences_eq_singleton (solid : ¬ pattern.Spells blind []) {text : List Char}
    {m : Occurrence} (found : pattern.occurrencesAt blind ⟨none, 0, text, []⟩ = [m])
    (start : m.start = 0) (stop : m.stop = text.length) :
    pattern.occurrences blind text = [m] := by
  cases text with
  | nil =>
      rw [occurrencesAt_end solid] at found
      cases found
  | cons c rest =>
      have skip : taken [m] - 1 = rest.length := by
        simp [taken, start, stop]
      rw [occurrences, sweep, if_pos rfl, found]
      simp only [skip, sweep_length_eq_nil solid, List.append_nil]

/-- The sweep finds what occurs at a place that is not inside of an occurrence found before. -/
theorem mem_sweep_of_free {m : Occurrence} (gone rest : List Char) (skip position : Nat)
    (ahead : gone.length + skip ≤ position) (within : position ≤ (gone ++ rest).length)
    (here : m ∈ pattern.occurrencesAt blind (.inText (gone ++ rest) position))
    (free : ∀ other ∈ pattern.sweep blind skip gone.getLast? gone.length rest,
      other.start < position → other.stop ≤ position) :
    m ∈ pattern.sweep blind skip gone.getLast? gone.length rest := by
  induction rest generalizing gone skip with
  | nil =>
      rw [List.append_nil] at within
      have reached : position = gone.length := by omega
      rw [reached, Place.inText_append] at here
      rw [sweep, if_pos (by omega)]
      exact here
  | cons c rest ih =>
      by_cases reached : position = gone.length
      · rw [reached, Place.inText_append] at here
        rw [sweep, if_pos (by omega)]
        exact List.mem_append_left _ here
      · have onward (skip : Nat) (ahead : gone.length + 1 + skip ≤ position)
            (free : ∀ other ∈ pattern.sweep blind skip (some c) (gone.length + 1) rest,
              other.start < position → other.stop ≤ position) :
            m ∈ pattern.sweep blind skip (some c) (gone.length + 1) rest := by
          have later := ih (gone ++ [c]) skip
          rw [List.getLast?_append, List.length_append, List.append_assoc] at later
          exact later ahead within here free
        rw [sweep] at free ⊢
        by_cases begins : skip = 0
        · rw [if_pos begins] at free ⊢
          apply List.mem_append_right
          apply onward
          · -- The occurrence found here, if there is one, ends in front of the place.
            cases last : (pattern.occurrencesAt blind
                ⟨gone.getLast?, gone.length, c :: rest, []⟩).getLast? with
            | none =>
                simp only [taken, last]
                omega
            | some other =>
                have mem := List.mem_of_getLast? last
                obtain ⟨_, _, between⟩ := exists_way_of_mem_occurrencesAt mem
                have start : other.start = gone.length := congrArg Occurrence.start between
                have stop := free other (List.mem_append_left _ mem) (by omega)
                simp only [taken, last]
                omega
          · intro other mem
            exact free other (List.mem_append_right _ mem)
        · rw [if_neg begins] at free ⊢
          apply onward
          · omega
          · exact free

/-- An occurrence at a place that is not inside of another one is found. -/
theorem mem_occurrences_of_free {text : List Char} {position : Nat} {m : Occurrence}
    (within : position ≤ text.length)
    (here : m ∈ pattern.occurrencesAt blind (.inText text position))
    (free : ∀ other ∈ pattern.occurrences blind text,
      other.start < position → other.stop ≤ position) :
    m ∈ pattern.occurrences blind text :=
  mem_sweep_of_free [] text 0 position (Nat.zero_le _) within here free

end Solid

end Pattern

end FilmQuery
