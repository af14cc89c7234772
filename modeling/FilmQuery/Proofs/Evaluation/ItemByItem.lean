/-
# Item by item

A list that is read item by item is read if each item is, and else the first item that is refused
says why.  Steps that are taken until one fails give what they give alone.
-/
import FilmQuery.Host
import Mathlib.Data.List.Forall2

namespace FilmQuery

variable {α β ε : Type} {f : α → Except ε β} {xs : List α}

/-- One step after another succeeds if both do. -/
theorem bind_eq_ok_iff {x : Except ε α} {y : β} :
    (x >>= f) = .ok y ↔ ∃ a, x = .ok a ∧ f a = .ok y := by
  cases x <;> simp [bind, Except.bind]

/-- After a first step the second one goes on with what the first has given. -/
theorem bind_of_ok {x : Except ε α} {a : α} (here : x = .ok a) : (x >>= f) = f a := by
  rw [here]
  rfl

/-- A first step that fails is the last. -/
theorem bind_of_error {x : Except ε α} {e : ε} (here : x = .error e) : (x >>= f) = .error e := by
  rw [here]
  rfl

theorem mapM_cons_of_ok {x : α} {y : β} (here : f x = .ok y) :
    (x :: xs).mapM f = (xs.mapM f).map (y :: ·) := by
  rw [List.mapM_cons, here]
  cases later : xs.mapM f <;> rfl

theorem mapM_cons_of_error {x : α} {e : ε} (here : f x = .error e) :
    (x :: xs).mapM f = .error e := by
  rw [List.mapM_cons, here]
  rfl

/-- What a list is read as is what its items are read as, in their order. -/
theorem mapM_eq_ok_iff {ys : List β} :
    xs.mapM f = .ok ys ↔ List.Forall₂ (fun x y => f x = .ok y) xs ys := by
  induction xs generalizing ys with
  | nil => simp [pure, Except.pure, eq_comm]
  | cons x xs ih =>
      rw [List.forall₂_cons_left_iff]
      simp only [← ih]
      cases here : f x with
      | error e => simp [mapM_cons_of_error here]
      | ok y =>
          rw [mapM_cons_of_ok here]
          cases xs.mapM f <;> simp [Except.map, eq_comm]

/-- Where it is known what each item is read as, so is the list. -/
theorem mapM_eq_ok_map {g : α → β} (each : ∀ x ∈ xs, f x = .ok (g x)) :
    xs.mapM f = .ok (xs.map g) := by
  rw [mapM_eq_ok_iff, List.forall₂_map_right_iff, List.forall₂_same]
  exact each

/-- Where it is known which items are read and as what, so it is for a list. -/
theorem mapM_eq_ok_iff_map {p : α → Prop} {g : α → β} {ys : List β}
    (each : ∀ x y, f x = .ok y ↔ p x ∧ y = g x) :
    xs.mapM f = .ok ys ↔ (∀ x ∈ xs, p x) ∧ ys = xs.map g := by
  have images : List.Forall₂ (fun x y => y = g x) xs ys ↔ ys = xs.map g := by
    rw [eq_comm, ← List.forall₂_eq_eq_eq, List.forall₂_map_left_iff]
    simp only [eq_comm]
  rw [mapM_eq_ok_iff, ← images, ← List.forall₂_and_left]
  simp only [each]

/-- The first item that is refused says why the list is. -/
theorem mapM_eq_error_iff {e : ε} :
    xs.mapM f = .error e ↔
      ∃ before x after, xs = before ++ x :: after ∧ (∀ y ∈ before, ∃ z, f y = .ok z) ∧
        f x = .error e := by
  induction xs with
  | nil => exact iff_of_false (by rintro ⟨⟩) (by simp)
  | cons x xs ih =>
      constructor
      · intro refused
        cases here : f x with
        | error reason =>
            rw [mapM_cons_of_error here] at refused
            cases refused
            exact ⟨[], x, xs, rfl, by simp, here⟩
        | ok y =>
            have later : xs.mapM f = .error e := by
              rw [mapM_cons_of_ok here] at refused
              cases rest : xs.mapM f with
              | error reason => simpa [rest, Except.map] using refused
              | ok ys => simp [rest, Except.map] at refused
            obtain ⟨before, x', after, split, readable, why⟩ := ih.mp later
            refine ⟨x :: before, x', after, by rw [split, List.cons_append], ?_, why⟩
            exact List.forall_mem_cons.mpr ⟨⟨y, here⟩, readable⟩
      · rintro ⟨before, x', after, split, readable, why⟩
        cases before with
        | nil =>
            cases split
            exact mapM_cons_of_error why
        | cons first before =>
            cases split
            obtain ⟨⟨y, here⟩, readable⟩ := List.forall_mem_cons.mp readable
            rw [mapM_cons_of_ok here, ih.mpr ⟨before, x', after, rfl, readable, why⟩]
            rfl

/-- Steps that all succeed give all that they give. -/
theorem untilError_map_ok (ys : List β) :
    untilError (ys.map (.ok : β → Except ε β)) = (ys, none) := by
  induction ys with
  | nil => rfl
  | cons y ys ih => rw [List.map_cons, untilError, ih]

end FilmQuery
