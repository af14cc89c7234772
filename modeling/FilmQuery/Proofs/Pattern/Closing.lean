/-
# How a pattern closes

The preferred way of a pattern ends with the preferred way of what the pattern closes with
(`exists_head?_of_closesWith`).  So what an occurrence ends with is settled by the end of its
pattern and the place that it starts from, whatever led there (`exists_close_of_mem`).
-/
import FilmQuery.Proofs.Pattern.Cutout
import FilmQuery.Proofs.Pattern.Noting

namespace FilmQuery

namespace Pattern

/-- Whether a pattern ends with another one. -/
def closesWith : Pattern → Pattern → Bool
  | .seq a b, last => .seq a b == last || b.closesWith last
  | other, last => other == last

variable {blind : Bool} {pattern last : Pattern} {p q r : Place}

/-- The preferred way of a pattern goes on with the preferred way of what it closes with. -/
theorem exists_head?_of_closesWith (closes : pattern.closesWith last = true)
    (first : (pattern.ways blind p).head? = some r) :
    ∃ q text, p.Takes text q ∧ (last.ways blind q).head? = some r := by
  have whole (same : (pattern == last) = true) :
      ∃ q text, p.Takes text q ∧ (last.ways blind q).head? = some r :=
    ⟨p, [], .refl p, eq_of_beq same ▸ first⟩
  induction pattern generalizing p with
  | seq a b _ second =>
      rcases Bool.or_eq_true_iff.mp closes with same | later
      · exact whole same
      · rw [ways, List.head?_flatMap] at first
        obtain ⟨s, toS, onward⟩ := List.exists_of_findSome?_eq_some first
        obtain ⟨front, _, reach⟩ := exists_spells_of_mem_ways toS
        obtain ⟨q, text, takes, found⟩ := second later onward fun same =>
          ⟨s, [], .refl s, eq_of_beq same ▸ onward⟩
        exact ⟨q, front ++ text, reach.trans takes, found⟩
  | _ => exact whole closes

/-- The preferred way is what a search finds. -/
theorem head?_ways (blind : Bool) (pattern : Pattern) (p : Place) :
    (pattern.ways blind p).head? = pattern.seek blind some p := by
  rw [seek_eq]
  cases pattern.ways blind p <;> rfl

/-- An occurrence closes with the preferred way of what its pattern closes with: so its text does,
and what was noted last. -/
theorem exists_close_of_mem {text : List Char} {m : Occurrence} (solid : ¬ pattern.Spells blind [])
    (closes : pattern.closesWith last = true) (mem : m ∈ pattern.occurrences blind text) :
    ∃ q r front close notes earlier, (Place.inText text m.start).Takes front q ∧
      (last.ways blind q).head? = some r ∧ q.Takes close r ∧ r.rest = text.drop m.stop ∧
        last.SpellsWith blind close notes ∧ m.text = front ++ close ∧
          m.captures = notes ++ earlier := by
  obtain ⟨_, _, here, _⟩ := exists_way_of_mem_occurrences mem
  rw [occurrencesAt_eq solid] at here
  obtain ⟨r, first, between⟩ := Option.map_eq_some_iff.mp (Option.mem_toList.mp here)
  obtain ⟨q, front, reach, onward⟩ := exists_head?_of_closesWith closes first
  obtain ⟨close, notes, spelled, takes, noted⟩ :=
    exists_spellsWith_of_mem_ways (List.mem_of_mem_head? onward)
  have whole := reach.trans takes
  have textEq : m.text = front ++ close := by
    rw [whole.text_eq, ← between]
    rfl
  refine ⟨q, r, front, close, notes, q.said, reach, onward, takes, ?_, spelled,
    textEq, ?_⟩
  · have lies := (pattern.occurrences_inOrder blind text).liesIn m mem
    have rest := whole.rest
    rw [← textEq] at rest
    exact (List.append_cancel_left (lies.drop_start.symm.trans rest)).symm
  · rw [← noted, ← between]
    rfl

end Pattern

end FilmQuery
