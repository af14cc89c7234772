/-
# What is spelled is taken

A pattern that asks nothing of its place takes whatever it spells, provided that its repetitions go
on with every step (`exists_mem_ways_of_spells`).  For such patterns this is the converse of
`exists_spells_of_mem_ways`.
-/
import FilmQuery.Proofs.Pattern.Language

namespace FilmQuery

namespace Pattern

/-- Whether every text of a pattern has some character. -/
def isSolid : Pattern → Bool
  | .char _ | .oneOf _ | .any => true
  | .seq a b => a.isSolid || b.isSolid
  | .alt a b => a.isSolid && b.isSolid
  | .group _ body => body.isSolid
  | .repeated least _ _ body => least != 0 && body.isSolid
  | _ => false

/-- Whether a pattern asks nothing of its place and repeats nothing that may be empty. -/
def isFree : Pattern → Bool
  | .nothing | .char _ | .oneOf _ | .any => true
  | .seq a b | .alt a b => a.isFree && b.isFree
  | .group _ body => body.isFree
  | .repeated _ _ _ body => body.isFree && body.isSolid
  | _ => false

variable {blind : Bool} {pattern : Pattern} {text behind : List Char} {p : Place}

theorem ne_nil_of_isSolid (solid : pattern.isSolid = true) (spelled : pattern.Spells blind text) :
    text ≠ [] := by
  induction pattern generalizing text with
  | char c | oneOf members | any =>
      obtain ⟨_, rfl, _⟩ := spelled
      exact List.cons_ne_nil _ _
  | seq a b first second =>
      obtain ⟨_, _, ofA, ofB, rfl⟩ := spelled
      rcases Bool.or_eq_true_iff.mp solid with here | later
      · exact List.append_ne_nil_of_left_ne_nil (first here ofA) _
      · exact List.append_ne_nil_of_right_ne_nil _ (second later ofB)
  | alt a b first second =>
      obtain ⟨solidA, solidB⟩ := Bool.and_eq_true_iff.mp solid
      exact spelled.elim (first solidA) (second solidB)
  | group index body ih => exact ih solid spelled
  | repeated least most eager body ih =>
      obtain ⟨needed, inside⟩ := Bool.and_eq_true_iff.mp solid
      obtain ⟨parts, ofBody, enough, _, rfl⟩ := spelled
      cases parts with
      | nil =>
          rw [Nat.le_zero.mp enough] at needed
          cases needed
      | cons part others =>
          rw [List.flatten_cons]
          exact List.append_ne_nil_of_left_ne_nil (ih inside (ofBody _ List.mem_cons_self)) _
  | _ => cases solid

section Repetitions

variable {step : Place → List Place} {parts : List (List Char)}

/-- Parts that can be taken one at a time are taken one behind the other. -/
theorem exists_mem_exactly
    (reaches : ∀ part ∈ parts, ∀ {p behind}, p.rest = part ++ behind → ∃ q ∈ step p, p.Takes part q)
    (rest : p.rest = parts.flatten ++ behind) :
    ∃ q ∈ exactly step parts.length p, p.Takes parts.flatten q := by
  induction parts generalizing p with
  | nil => exact ⟨p, List.mem_singleton_self p, .refl p⟩
  | cons part parts ih =>
      obtain ⟨here, later⟩ := List.forall_mem_cons.mp reaches
      rw [List.flatten_cons, List.append_assoc] at rest
      obtain ⟨r, toR, takes⟩ := here rest
      obtain ⟨q, toQ, onward⟩ := ih later (List.append_cancel_left (takes.rest.symm.trans rest))
      exact ⟨q, List.mem_flatMap.mpr ⟨r, toR, toQ⟩, takes.trans onward⟩

/-- A repetition takes as many parts as it is allowed to, each with some character. -/
theorem exists_mem_further (eager : Bool)
    (reaches : ∀ part ∈ parts, ∀ {p behind}, p.rest = part ++ behind → ∃ q ∈ step p, p.Takes part q)
    (solid : ∀ part ∈ parts, part ≠ []) {limit : Nat} (allowed : parts.length ≤ limit)
    (rest : p.rest = parts.flatten ++ behind) :
    ∃ q ∈ further step eager limit p, p.Takes parts.flatten q := by
  induction parts generalizing p limit with
  | nil =>
      refine ⟨p, ?_, .refl p⟩
      cases limit with
      | zero => exact List.mem_singleton_self p
      | succ limit => exact mem_further_succ.mpr (.inl rfl)
  | cons part parts ih =>
      obtain ⟨here, later⟩ := List.forall_mem_cons.mp reaches
      obtain ⟨some, others⟩ := List.forall_mem_cons.mp solid
      obtain ⟨limit, rfl⟩ : ∃ n, limit = n + 1 := ⟨limit - 1, by simp at allowed; omega⟩
      rw [List.flatten_cons, List.append_assoc] at rest
      obtain ⟨r, toR, takes⟩ := here rest
      obtain ⟨q, toQ, onward⟩ := ih later others (Nat.le_of_succ_le_succ allowed)
        (List.append_cancel_left (takes.rest.symm.trans rest))
      have further : p.position < r.position := by
        have length := List.length_pos_iff.mpr some
        rw [takes.position]
        omega
      refine ⟨q, mem_further_succ.mpr (.inr ⟨r, toR, ?_⟩), takes.trans onward⟩
      rwa [if_pos further]

end Repetitions

theorem length_le_flatten {parts : List (List Char)} (solid : ∀ part ∈ parts, part ≠ []) :
    parts.length ≤ parts.flatten.length := by
  induction parts with
  | nil => exact Nat.le_refl 0
  | cons part parts ih =>
      obtain ⟨some, others⟩ := List.forall_mem_cons.mp solid
      have length := List.length_pos_iff.mpr some
      have rest := ih others
      rw [List.length_cons, List.flatten_cons, List.length_append]
      omega

/-- A pattern that asks nothing of its place takes every text that it spells. -/
theorem exists_mem_ways_of_spells (free : pattern.isFree = true)
    (spelled : pattern.Spells blind text) (rest : p.rest = text ++ behind) :
    ∃ q ∈ pattern.ways blind p, p.Takes text q := by
  induction pattern generalizing text behind p with
  | nothing =>
      obtain rfl : text = [] := spelled
      exact ⟨p, List.mem_singleton_self p, .refl p⟩
  | char c =>
      obtain ⟨d, rfl, same⟩ := spelled
      exact ⟨⟨some d, p.position + 1, behind, p.captures⟩, by simp [ways, Place.take, rest, same],
        rest, rfl, rfl⟩
  | oneOf members =>
      obtain ⟨d, rfl, has⟩ := spelled
      exact ⟨⟨some d, p.position + 1, behind, p.captures⟩, by simp [ways, Place.take, rest, has],
        rest, rfl, rfl⟩
  | any =>
      obtain ⟨d, rfl, visible⟩ := spelled
      exact ⟨⟨some d, p.position + 1, behind, p.captures⟩,
        by simp [ways, Place.take, rest, visible], rest, rfl, rfl⟩
  | seq a b first second =>
      obtain ⟨freeA, freeB⟩ := Bool.and_eq_true_iff.mp free
      obtain ⟨front, back, ofA, ofB, rfl⟩ := spelled
      rw [List.append_assoc] at rest
      obtain ⟨r, toR, reach⟩ := first freeA ofA rest
      obtain ⟨q, toQ, onward⟩ := second freeB ofB
        (List.append_cancel_left (reach.rest.symm.trans rest))
      exact ⟨q, List.mem_flatMap.mpr ⟨r, toR, toQ⟩, reach.trans onward⟩
  | alt a b first second =>
      obtain ⟨freeA, freeB⟩ := Bool.and_eq_true_iff.mp free
      rcases spelled with ofA | ofB
      · obtain ⟨q, way, takes⟩ := first freeA ofA rest
        exact ⟨q, List.mem_append_left _ way, takes⟩
      · obtain ⟨q, way, takes⟩ := second freeB ofB rest
        exact ⟨q, List.mem_append_right _ way, takes⟩
  | group index body ih =>
      obtain ⟨q, way, takes⟩ := ih free spelled rest
      exact ⟨p.remember index q, List.mem_map_of_mem way, takes.remember index p⟩
  | repeated least most eager body ih =>
      obtain ⟨freeBody, solid⟩ := Bool.and_eq_true_iff.mp free
      obtain ⟨parts, ofBody, enough, bounded, rfl⟩ := spelled
      have reaches : ∀ part ∈ parts, ∀ {p : Place} {behind}, p.rest = part ++ behind →
          ∃ q ∈ body.ways blind p, p.Takes part q :=
        fun part mem _ _ rest => ih freeBody (ofBody part mem) rest
      have some : ∀ part ∈ parts, part ≠ [] :=
        fun part mem => ne_nil_of_isSolid solid (ofBody part mem)
      -- As many parts as are needed, and then the others.
      have split : parts.flatten = (parts.take least).flatten ++ (parts.drop least).flatten := by
        rw [← List.flatten_append, List.take_append_drop]
      have length : (parts.take least).length = least := by
        rw [List.length_take]
        omega
      rw [split, List.append_assoc] at rest
      obtain ⟨r, toR, reach⟩ := exists_mem_exactly
        (fun part mem => reaches part (List.mem_of_mem_take mem)) rest
      have onwards := List.append_cancel_left (reach.rest.symm.trans rest)
      have others : ∀ part ∈ parts.drop least, part ≠ [] :=
        fun part mem => some part (List.mem_of_mem_drop mem)
      have allowed : (parts.drop least).length ≤ allowance least most r := by
        cases most with
        | none =>
            have le := length_le_flatten others
            simp only [allowance, onwards, List.length_append]
            omega
        | some bound =>
            have le := bounded bound rfl
            simp only [allowance, List.length_drop]
            omega
      obtain ⟨q, toQ, onward⟩ := exists_mem_further eager
        (fun part mem => reaches part (List.mem_of_mem_drop mem)) others allowed onwards
      rw [length] at toR
      rw [split]
      exact ⟨q, List.mem_flatMap.mpr ⟨r, toR, toQ⟩, reach.trans onward⟩
  | _ => cases free

end Pattern

end FilmQuery
