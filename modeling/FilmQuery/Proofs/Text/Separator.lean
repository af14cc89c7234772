/-
# Separators

A separator is neither part of a word nor a blank, nor one of the few signs that phrases are written
with.  The classes of characters are tables, so what they have to do with each other is checked run
by run: decimal digits are parts of words, blanks are not, and whatever counts as a small letter of
the Latin alphabet when case is ignored is part of a word.
-/
import FilmQuery.Text.Blank
import FilmQuery.Text.Digit
import FilmQuery.Text.LetterCase
import FilmQuery.Text.Word
import Mathlib.Data.List.Chain
import Mathlib.Data.List.TakeWhile

namespace FilmQuery.Text

/-- Whether a character keeps two phrases apart: it is no part of a word, no blank, and none of the
signs of ratings, ranges and names. -/
def isSeparator (c : Char) : Bool :=
  !isWord c && !isBlank c && !List.contains ['+', '-', '.', '<', '>'] c

/-- A code point that lies in one of the runs is covered, since the runs ascend. -/
theorem CodeRuns.covers_of_mem {runs : CodeRuns} (ascending : runs.Pairwise fun r s => r.1 ≤ s.1)
    {run : Nat × Nat} (mem : run ∈ runs) {n : Nat} (first : run.1 ≤ n) (last : n ≤ run.2) :
    runs.covers n = true := by
  induction runs with
  | nil => simp at mem
  | cons head rest ih =>
      obtain ⟨before, ascendingRest⟩ := List.pairwise_cons.mp ascending
      rw [CodeRuns.covers]
      rcases List.mem_cons.mp mem with rfl | mem
      · simp [Nat.not_lt.mpr first, last]
      · have reached : ¬ n < head.1 := Nat.not_lt.mpr (Nat.le_trans (before run mem) first)
        simp [reached, ih ascendingRest mem]

theorem CodeRuns.exists_mem_of_covers {runs : CodeRuns} {n : Nat} (covered : runs.covers n = true) :
    ∃ run ∈ runs, run.1 ≤ n ∧ n ≤ run.2 := by
  induction runs with
  | nil => simp [CodeRuns.covers] at covered
  | cons head rest ih =>
      rw [CodeRuns.covers] at covered
      split at covered
      · simp at covered
      next reached =>
        rcases Bool.or_eq_true _ _ |>.mp covered with here | later
        · exact ⟨head, List.mem_cons_self, by omega, of_decide_eq_true here⟩
        · obtain ⟨run, mem, within⟩ := ih later
          exact ⟨run, List.mem_cons_of_mem _ mem, within⟩

theorem wordRuns_ascending : wordRuns.Pairwise fun r s => r.1 ≤ s.1 := by
  have chain : wordRuns.IsChain fun r s => r.1 ≤ s.1 := by decide +kernel
  exact List.isChain_iff_pairwise.mp chain

/-- Whether every number has a run that holds it and the nine that follow; the numbers ascend. -/
def coversTens : CodeRuns → List Nat → Bool
  | [], starts => starts.isEmpty
  | run :: rest, starts =>
    coversTens rest (starts.dropWhile fun start => run.1 ≤ start && start + 9 ≤ run.2)

theorem exists_run_of_coversTens {runs : CodeRuns} {starts : List Nat}
    (covered : coversTens runs starts = true) {start : Nat} (mem : start ∈ starts) :
    ∃ run ∈ runs, run.1 ≤ start ∧ start + 9 ≤ run.2 := by
  induction runs generalizing starts with
  | nil =>
      rw [coversTens, List.isEmpty_iff] at covered
      simp [covered] at mem
  | cons run rest ih =>
      rw [← List.takeWhile_append_dropWhile (p := fun start => run.1 ≤ start && start + 9 ≤ run.2)
        (l := starts), List.mem_append] at mem
      rcases mem with here | later
      · exact ⟨run, List.mem_cons_self, by simpa using List.mem_takeWhile_imp here⟩
      · obtain ⟨run, mem, within⟩ := ih covered later
        exact ⟨run, List.mem_cons_of_mem _ mem, within⟩

/-- A decimal digit of any script is part of a word. -/
theorem isWord_of_isDigit {c : Char} (digit : isDigit c = true) : isWord c = true := by
  have tens : coversTens wordRuns digitZeros = true := by decide +kernel
  obtain ⟨value, valueEq⟩ := Option.isSome_iff_exists.mp digit
  obtain ⟨start, found, _⟩ := Option.map_eq_some_iff.mp valueEq
  have near := List.find?_some found
  obtain ⟨run, mem, first, last⟩ := exists_run_of_coversTens tens (List.mem_of_find?_eq_some found)
  simp only [Bool.and_eq_true, decide_eq_true_eq] at near
  exact CodeRuns.covers_of_mem wordRuns_ascending mem (by omega) (by omega)

/-- A blank is no part of a word. -/
theorem isWord_eq_false_of_isBlank {c : Char} (blank : isBlank c = true) : isWord c = false := by
  have apart : (blankRuns.all fun run => (List.range (run.2 + 1 - run.1)).all fun i =>
      !wordRuns.covers (run.1 + i)) = true := by decide +kernel
  obtain ⟨run, mem, first, last⟩ := CodeRuns.exists_mem_of_covers blank
  have here := List.all_eq_true.mp (List.all_eq_true.mp apart run mem) (c.toNat - run.1)
    (List.mem_range.mpr (by omega))
  rw [Nat.add_sub_cancel' first] at here
  simpa [isWord] using here

theorem isBlank_eq_false_of_isWord {c : Char} (word : isWord c = true) : isBlank c = false := by
  rw [Bool.eq_false_iff]
  intro blank
  rw [isWord_eq_false_of_isBlank blank] at word
  cases word

theorem isBlank_eq_false_of_isDigit {c : Char} (digit : isDigit c = true) : isBlank c = false :=
  isBlank_eq_false_of_isWord (isWord_of_isDigit digit)

theorem exists_run_of_moveBy {runs : List CaseRun} {n m : Nat} (moved : moveBy runs n = some m) :
    ∃ run ∈ runs, run.has n = true ∧ ((n : Int) + run.shift).toNat = m := by
  induction runs with
  | nil => simp [moveBy] at moved
  | cons head rest ih =>
      rw [moveBy] at moved
      split at moved
      · simp at moved
      · split at moved
        next here => exact ⟨head, List.mem_cons_self, here, Option.some.inj moved⟩
        next =>
          obtain ⟨run, mem, has⟩ := ih moved
          exact ⟨run, List.mem_cons_of_mem _ mem, has⟩

/-- The code points that some run moves to `n`. -/
def sources (n : Nat) : List Nat :=
  lowerRuns.filterMap fun run =>
    let source := ((n : Int) - run.shift).toNat
    if run.has source then some source else none

/-- A small letter comes from itself or from a source of its code point. -/
theorem toNat_mem_of_lower {c d : Char} (small : lower c = d) (visible : d.toNat ≠ 0) :
    c.toNat ∈ d.toNat :: sources d.toNat := by
  unfold lower at small
  split at small
  next n moved =>
    have target : n = d.toNat := by
      by_cases valid : n.isValidChar
      · rw [Char.ofNat, dif_pos valid] at small
        rw [← small]
        rfl
      · rw [Char.ofNat, dif_neg valid] at small
        exact absurd (small ▸ rfl) visible
    obtain ⟨run, mem, has, shifted⟩ := exists_run_of_moveBy moved
    have source : ((d.toNat : Int) - run.shift).toNat = c.toNat := by omega
    refine List.mem_cons_of_mem _ (List.mem_filterMap.mpr ⟨run, mem, ?_⟩)
    simp [source, has]
  next =>
    rw [small]
    exact List.mem_cons_self

/-- The small letters that count as a letter when case is ignored. -/
def smallForms (c : Char) : List Char := lower c :: kin (lower c)

/-- What holds of every code point that some small form of a letter comes from holds of everything
that counts as the letter when case is ignored. -/
theorem holds_of_sameLetter (holds : Char → Bool) {c d : Char}
    (checked : ((smallForms c).all fun small => small.toNat != 0 &&
      (small.toNat :: sources small.toNat).all fun n => holds (Char.ofNat n)) = true)
    (same : sameLetter c d = true) : holds d = true := by
  have small : lower d ∈ smallForms c := by
    simpa [sameLetter, smallForms] using same
  have form := List.all_eq_true.mp checked _ small
  rw [Bool.and_eq_true, bne_iff_ne] at form
  have here := List.all_eq_true.mp form.2 _ (toNat_mem_of_lower rfl form.1)
  rwa [Char.ofNat_toNat] at here

/-- The characters that phrases are written with. -/
def phraseChars : List Char := "abcdefghijklmnopqrstuvwxyz +-.<>".toList

/-- No separator counts as a character of a phrase, with case or without. -/
theorem sameLetter_eq_false_of_isSeparator {c d : Char} (phrase : c ∈ phraseChars)
    (separator : isSeparator d = true) : sameLetter c d = false := by
  have forms : (phraseChars.all fun c => (smallForms c).all fun small =>
      small.toNat != 0 && (small.toNat :: sources small.toNat).all fun n =>
        !isSeparator (Char.ofNat n)) = true := by decide +kernel
  rw [Bool.eq_false_iff]
  intro same
  have refused := holds_of_sameLetter (fun d => !isSeparator d)
    (List.all_eq_true.mp forms c phrase) same
  simp [separator] at refused

end FilmQuery.Text
