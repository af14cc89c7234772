/-
# Texts without the case of Latin letters

A text loses the case of its Latin letters when each capital is written small; all other characters
stay as they are.  The classes of characters and both ways to forget the case of a letter see no
difference, which is settled letter by letter (`apply_toLower`).
-/
import FilmQuery.Text.Blank
import FilmQuery.Text.Digit
import FilmQuery.Text.LetterCase
import FilmQuery.Text.Word
import Mathlib.Data.List.TakeWhile

namespace FilmQuery.Text

/-- The text with its Latin capitals written small. -/
def uncased (text : List Char) : List Char := text.map Char.toLower

/-- A character is a Latin capital or is written small already. -/
theorem toLower_eq_or (c : Char) :
    c.toLower = c ∨ ∃ n < 26, c = Char.ofNat (65 + n) ∧ c.toLower = Char.ofNat (97 + n) := by
  by_cases capital : 65 ≤ c.toNat ∧ c.toNat ≤ 90
  · have small : ∀ n < 26, (Char.ofNat (65 + n)).toLower = Char.ofNat (97 + n) := by decide
    have here : Char.ofNat (65 + (c.toNat - 65)) = c := by
      rw [Nat.add_sub_cancel' capital.1, Char.ofNat_toNat]
    have there := small (c.toNat - 65) (by omega)
    rw [here] at there
    exact .inr ⟨c.toNat - 65, by omega, here.symm, there⟩
  · refine .inl ?_
    unfold Char.toLower
    rw [dif_neg]
    exact fun within =>
      capital ⟨UInt32.le_iff_toNat_le.mp within.1, UInt32.le_iff_toNat_le.mp within.2⟩

/-- What is said alike of every capital and its small letter is said of a character and its small
form. -/
theorem apply_toLower {α : Type} (say : Char → α)
    (alike : ∀ n < 26, say (Char.ofNat (97 + n)) = say (Char.ofNat (65 + n))) (c : Char) :
    say c.toLower = say c := by
  rcases toLower_eq_or c with same | ⟨n, letter, capital, small⟩
  · rw [same]
  · rw [small, capital, alike n letter]

@[simp]
theorem toLower_toLower (c : Char) : c.toLower.toLower = c.toLower :=
  apply_toLower Char.toLower (by decide) c

@[simp]
theorem isWord_toLower (c : Char) : isWord c.toLower = isWord c :=
  apply_toLower isWord (by decide) c

@[simp]
theorem isBlank_toLower (c : Char) : isBlank c.toLower = isBlank c :=
  apply_toLower isBlank (by decide) c

@[simp]
theorem isDigit_toLower (c : Char) : isDigit c.toLower = isDigit c :=
  apply_toLower isDigit (by decide) c

@[simp]
theorem lower_toLower (c : Char) : lower c.toLower = lower c :=
  apply_toLower lower (by decide +kernel) c

@[simp]
theorem fold_toLower (c : Char) : fold c.toLower = fold c :=
  apply_toLower fold (by decide +kernel) c

@[simp]
theorem sameLetter_toLower (c d : Char) : sameLetter c d.toLower = sameLetter c d := by
  rw [sameLetter, sameLetter, lower_toLower]

variable (text : List Char)

@[simp]
theorem uncased_uncased : uncased (uncased text) = uncased text := by
  simp [uncased]

@[simp]
theorem length_uncased : (uncased text).length = text.length := by simp [uncased]

/-- Blanks are cut off at the same places. -/
theorem trim_uncased : trim (uncased text) = uncased (trim text) := by
  have blank : isBlank ∘ Char.toLower = isBlank := funext isBlank_toLower
  simp only [trim, uncased, List.dropWhile_map, ← List.map_reverse, blank]

end FilmQuery.Text
