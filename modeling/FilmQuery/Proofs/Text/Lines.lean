/-
# Pieces and lines of a text

A text splits at its newlines into one piece more than it has newlines (`length_splitAtNewlines`),
and where a newline stands between two texts, into the pieces of the one and then those of the other
(`splitAtNewlines_append`).  So lines that have no line end of their own come back from a text in
which each of them is ended (`lines_ended`).  Trimming takes away what is blank in front and behind,
and nothing else (`trim_eq`).
-/
import FilmQuery.Proofs.Text.Literal
import FilmQuery.Text.Blank
import FilmQuery.Text.Lines
import Mathlib.Data.List.DropRight

namespace FilmQuery.Text

section Dropping

variable {drops : Char → Bool}

theorem dropWhile_append_of_stop {gap behind : List Char} (dropped : ∀ c ∈ gap, drops c = true)
    (stops : behind.head?.any drops = false) : (gap ++ behind).dropWhile drops = behind := by
  rw [List.dropWhile_append_of_pos dropped]
  cases behind with
  | nil => rfl
  | cons c behind =>
      rw [List.head?_cons, Option.any_some] at stops
      rw [List.dropWhile_cons, stops]
      rfl

/-- What is between characters that are dropped is left without them, if it neither begins nor ends
with one. -/
theorem rdropWhile_dropWhile_eq {front middle behind : List Char}
    (dropped : ∀ c ∈ front, drops c = true) (dropped' : ∀ c ∈ behind, drops c = true)
    (begins : middle.head?.any drops = false) (ends : middle.getLast?.any drops = false) :
    ((front ++ (middle ++ behind)).dropWhile drops).rdropWhile drops = middle := by
  by_cases empty : middle = []
  · have all : ∀ c ∈ front ++ behind, drops c = true := fun c mem =>
      (List.mem_append.mp mem).elim (dropped c) (dropped' c)
    have nothing : (front ++ behind ++ []).dropWhile drops = [] := dropWhile_append_of_stop all rfl
    rw [List.append_nil] at nothing
    rw [empty, List.nil_append, nothing, List.rdropWhile_nil]
  · have head : (middle ++ behind).head?.any drops = false := by
      rwa [List.head?_append_of_ne_nil _ empty]
    have last : middle.reverse.head?.any drops = false := by rwa [List.head?_reverse]
    rw [dropWhile_append_of_stop dropped head, List.rdropWhile, List.reverse_append,
      dropWhile_append_of_stop (fun c mem => dropped' c (List.mem_reverse.mp mem)) last,
      List.reverse_reverse]

end Dropping

/-- What is between blanks is left without them, if it neither begins nor ends with one. -/
theorem trim_eq {front middle behind : List Char} (blank : ∀ c ∈ front, isBlank c = true)
    (blank' : ∀ c ∈ behind, isBlank c = true) (begins : middle.head?.any isBlank = false)
    (ends : middle.getLast?.any isBlank = false) : trim (front ++ (middle ++ behind)) = middle :=
  rdropWhile_dropWhile_eq blank blank' begins ends

/-- A text that neither begins nor ends with a blank is left as it is. -/
theorem trim_eq_self {text : List Char} (begins : text.head?.any isBlank = false)
    (ends : text.getLast?.any isBlank = false) : trim text = text := by
  have trimmed := trim_eq (List.forall_mem_nil _) (List.forall_mem_nil _) begins ends
  rwa [List.nil_append, List.append_nil] at trimmed

theorem trim_subset (text : List Char) : trim text ⊆ text := by
  intro c mem
  have inFront := (List.dropWhile_suffix isBlank).subset (List.mem_reverse.mp mem)
  exact (List.dropWhile_suffix isBlank).subset (List.mem_reverse.mp inFront)

section Pieces

variable {piece text : List Char}

theorem splitAtNewlines_ne_nil (text : List Char) : splitAtNewlines text ≠ [] := by
  cases text with
  | nil => exact List.cons_ne_nil _ _
  | cons c rest =>
      unfold splitAtNewlines
      split
      · exact List.cons_ne_nil _ _
      · split <;> exact List.cons_ne_nil _ _

/-- A text on one line is one piece. -/
theorem splitAtNewlines_line (line : IsLine piece) : splitAtNewlines piece = [piece] := by
  induction piece with
  | nil => rfl
  | cons c piece ih =>
      rw [isLine_cons] at line
      rw [splitAtNewlines, if_neg line.1, ih line.2]

/-- A newline between two texts ends the last piece of the first. -/
theorem splitAtNewlines_append (first second : List Char) :
    splitAtNewlines (first ++ '\n' :: second) =
      splitAtNewlines first ++ splitAtNewlines second := by
  induction first with
  | nil => rfl
  | cons c first ih =>
      rw [List.cons_append, splitAtNewlines, splitAtNewlines, ih]
      split
      · rfl
      · obtain ⟨piece, pieces, split⟩ := List.exists_cons_of_ne_nil (splitAtNewlines_ne_nil first)
        rw [split]
        rfl

/-- Texts with newlines between them split into the pieces of each, one after the other. -/
theorem splitAtNewlines_intercalate {texts : List (List Char)} (some : texts ≠ []) :
    splitAtNewlines (List.intercalate ['\n'] texts) = texts.flatMap splitAtNewlines := by
  induction texts with
  | nil => exact absurd rfl some
  | cons text texts ih =>
      cases texts with
      | nil => rw [List.intercalate_singleton, List.flatMap_singleton]
      | cons next texts =>
          rw [List.intercalate_cons_cons, List.append_assoc, List.singleton_append,
            splitAtNewlines_append, ih (List.cons_ne_nil _ _)]
          rfl

/-- There is one piece more than there are newlines. -/
theorem length_splitAtNewlines (text : List Char) :
    (splitAtNewlines text).length = text.count '\n' + 1 := by
  induction text with
  | nil => rfl
  | cons c text ih =>
      obtain ⟨piece, pieces, split⟩ := List.exists_cons_of_ne_nil (splitAtNewlines_ne_nil text)
      rw [splitAtNewlines]
      split
      next newline => rw [newline, List.length_cons, ih, List.count_cons_self]
      next other =>
        rw [List.count_cons_of_ne other, ← ih, split]
        rfl

/-- Texts on one line each are their own pieces. -/
theorem flatMap_splitAtNewlines {texts : List (List Char)} (each : ∀ text ∈ texts, IsLine text) :
    texts.flatMap splitAtNewlines = texts := by
  rw [List.flatMap_congr fun text mem => splitAtNewlines_line (each text mem),
    List.flatMap_singleton']

/-- Texts have at least one piece each. -/
theorem length_le_flatMap_splitAtNewlines (texts : List (List Char)) :
    texts.length ≤ (texts.flatMap splitAtNewlines).length := by
  induction texts with
  | nil => exact Nat.le_refl 0
  | cons text texts ih =>
      rw [List.flatMap_cons, List.length_append, length_splitAtNewlines, List.length_cons]
      omega

/-- Texts have no more pieces than there are texts exactly if each of them is on one line. -/
theorem length_flatMap_splitAtNewlines_eq_iff {texts : List (List Char)} :
    (texts.flatMap splitAtNewlines).length = texts.length ↔ ∀ text ∈ texts, IsLine text := by
  induction texts with
  | nil => exact ⟨fun _ => List.forall_mem_nil _, fun _ => rfl⟩
  | cons text texts ih =>
      have others := length_le_flatMap_splitAtNewlines texts
      rw [List.forall_mem_cons, ← ih, IsLine, ← List.count_eq_zero, List.flatMap_cons,
        List.length_append, length_splitAtNewlines, List.length_cons]
      omega

end Pieces

section Lines

theorem unifyLineEnds_eq_self {text : List Char} (none : '\r' ∉ text) :
    unifyLineEnds text = text := by
  induction text with
  | nil => rfl
  | cons c text ih =>
      rw [List.mem_cons, not_or] at none
      rw [unifyLineEnds, ih none.2]
      · exact fun _ same _ => none.1 same.symm
      · exact fun same => none.1 same.symm

/-- The lines of a text in which each line is ended, none of which has a line end of its own: there
is an empty piece behind the last line end. -/
theorem lines_ended {texts : List (List Char)} (solid : ∀ text ∈ texts, IsLine text ∧ '\r' ∉ text) :
    lines (texts.flatMap (· ++ ['\n'])) = texts ++ [[]] := by
  have noReturn : '\r' ∉ texts.flatMap (· ++ ['\n']) := by
    rw [List.mem_flatMap]
    rintro ⟨text, mem, inText⟩
    rw [List.mem_append, List.mem_singleton] at inText
    exact inText.elim (solid text mem).2 (by decide)
  rw [lines, unifyLineEnds_eq_self noReturn]
  clear noReturn
  induction texts with
  | nil => rfl
  | cons text texts ih =>
      obtain ⟨first, others⟩ := List.forall_mem_cons.mp solid
      rw [List.flatMap_cons, List.append_assoc, List.singleton_append, splitAtNewlines_append,
        splitAtNewlines_line first.1, ih others]
      rfl

end Lines

end FilmQuery.Text
