/-
# What the groups of a pattern note

The groups of a pattern note parts of the text that the pattern takes.  `SpellsWith` says which
parts they are along with the text, one construct at a time, as `Spells` does for the text alone; of
repetitions with groups in them it says nothing.  The text of an occurrence and what its groups have
met belong together in this way (`spellsWith_of_mem_occurrences`).
-/
import FilmQuery.Proofs.Pattern.Extent
import FilmQuery.Proofs.Pattern.Finding

namespace FilmQuery

namespace Pattern

/-- Whether a pattern takes a text while its groups note others, the last one first. -/
def SpellsWith (blind : Bool) : Pattern → List Char → List (Nat × List Char) → Prop
  | .seq a b, text, notes => ∃ first second before behind, SpellsWith blind a first before ∧
      SpellsWith blind b second behind ∧ text = first ++ second ∧ notes = behind ++ before
  | .alt a b, text, notes => SpellsWith blind a text notes ∨ SpellsWith blind b text notes
  | .group index body, text, notes =>
    ∃ inner, SpellsWith blind body text inner ∧ notes = (index, text) :: inner
  | pattern, text, notes => pattern.Spells blind text ∧ (pattern.groups = [] → notes = [])

variable {blind : Bool} {pattern : Pattern}

theorem SpellsWith.spells {text : List Char} {notes : List (Nat × List Char)}
    (spelled : pattern.SpellsWith blind text notes) : pattern.Spells blind text := by
  induction pattern generalizing text notes with
  | seq a b first second =>
      obtain ⟨front, rest, _, _, ofA, ofB, rfl, _⟩ := spelled
      exact ⟨front, rest, first ofA, second ofB, rfl⟩
  | alt a b first second => exact spelled.imp first second
  | group index body ih =>
      obtain ⟨_, ofBody, _⟩ := spelled
      exact ih ofBody
  | _ => exact spelled.1

/-- Nothing is noted on a way without groups. -/
theorem captures_eq_of_mem_ways (none : pattern.groups = []) {p q : Place}
    (mem : q ∈ pattern.ways blind p) : q.captures = p.captures :=
  holds_captures_of_mem_ways (· = p.captures) (by simp [none]) (List.Subset.refl _) mem rfl

/-- What was noted before a way is not forgotten on it. -/
theorem captures_suffix_of_mem_ways {p q : Place} (mem : q ∈ pattern.ways blind p) :
    p.captures <:+ q.captures :=
  holds_captures_of_mem_ways (p.captures <:+ ·)
    (fun _ _ _ _ _ before => before.trans (List.suffix_cons _ _)) (List.Subset.refl _) mem
    List.suffix_rfl

/-- A way takes a text that the pattern spells with what is noted on it. -/
theorem exists_spellsWith_of_mem_ways {p q : Place} (mem : q ∈ pattern.ways blind p) :
    ∃ text notes, pattern.SpellsWith blind text notes ∧ p.Takes text q ∧
      q.said = notes ++ p.said := by
  induction pattern generalizing p q with
  | seq a b first second =>
      obtain ⟨r, toR, toQ⟩ := List.mem_flatMap.mp mem
      obtain ⟨front, before, ofA, reach, noted⟩ := first toR
      obtain ⟨rest, behind, ofB, onward, noted'⟩ := second toQ
      exact ⟨front ++ rest, behind ++ before, ⟨front, rest, before, behind, ofA, ofB, rfl, rfl⟩,
        reach.trans onward, by rw [noted', noted, List.append_assoc]⟩
  | alt a b first second =>
      rcases List.mem_append.mp mem with mem | mem
      · obtain ⟨text, notes, ofA, takes, noted⟩ := first mem
        exact ⟨text, notes, .inl ofA, takes, noted⟩
      · obtain ⟨text, notes, ofB, takes, noted⟩ := second mem
        exact ⟨text, notes, .inr ofB, takes, noted⟩
  | group index body ih =>
      obtain ⟨r, toR, remembered⟩ := List.mem_map.mp mem
      obtain ⟨text, notes, ofBody, takes, noted⟩ := ih toR
      rw [← remembered]
      refine ⟨text, (index, text) :: notes, ⟨notes, ofBody, rfl⟩, takes.remember index p, ?_⟩
      rw [List.cons_append, ← noted]
      conv_rhs => rw [takes.text_eq]
      rfl
  | _ =>
      obtain ⟨text, spelled, takes⟩ := exists_spells_of_mem_ways mem
      obtain ⟨noted, split⟩ := captures_suffix_of_mem_ways mem
      refine ⟨text, noted.map fun capture => (capture.index, capture.text),
        ⟨spelled, fun none => ?_⟩, takes, ?_⟩
      · have nothing : noted = [] := by simpa [captures_eq_of_mem_ways none mem] using split
        rw [nothing, List.map_nil]
      · rw [Place.said, ← split, List.map_append]
        rfl

theorem groupCount_of_mem_occurrences {text : List Char} {m : Occurrence}
    (mem : m ∈ pattern.occurrences blind text) : m.groupCount = pattern.groupCount := by
  obtain ⟨_, _, _, between⟩ := exists_way_of_mem_occurrences mem
  exact congrArg Occurrence.groupCount between

/-- The text of an occurrence is spelled with what its groups have met. -/
theorem spellsWith_of_mem_occurrences {text : List Char} {m : Occurrence}
    (mem : m ∈ pattern.occurrences blind text) : pattern.SpellsWith blind m.text m.captures := by
  obtain ⟨q, way, _, between⟩ := exists_way_of_mem_occurrences mem
  obtain ⟨taken, notes, spelled, takes, noted⟩ := exists_spellsWith_of_mem_ways way
  have textEq : m.text = taken := by
    rw [takes.text_eq, between]
    rfl
  have capturesEq : m.captures = notes := by
    rw [← List.append_nil notes, between]
    exact noted
  rwa [textEq, capturesEq]

end Pattern

end FilmQuery
