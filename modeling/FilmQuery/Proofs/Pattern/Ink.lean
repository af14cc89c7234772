/-
# What characters look like in a sketch

Phrases are written with few characters, and it mostly does not matter which digit or which blank
one of them is, or in which case a letter is written.  An ink draws all characters that differ in
no more than that.  Classes of characters cannot tell them apart (`has_eq`), and neither can the
characters of phrases, with one exception: a space is told from other blanks (`sameLetter_eq`).
-/
import FilmQuery.Pattern.Basic
import FilmQuery.Proofs.Text.Face
import FilmQuery.Proofs.Text.Uncased

namespace FilmQuery

open Text

/-- How a character is drawn: as a character of phrases in either case, as some digit, or as some
blank. -/
inductive Ink where
  | char (c : Char)
  | digit
  | blank
  deriving DecidableEq, Repr

namespace Ink

/-- Whether a character is drawn so. -/
def Draws : Ink → Char → Prop
  | .char c, d => c ∈ phraseChars ∧ d.toLower = c
  | .digit, d => isDigit d = true
  | .blank, d => isBlank d = true

/-- Whether everything drawn so is in a class; otherwise nothing is. -/
def isOfClass (k : CharClass) : Ink → Bool
  | .char c => k.has c
  | .digit => k.has '0'
  | .blank => k.has ' '

/-- Whether what is drawn so is part of a word. -/
def isWord (ink : Ink) : Bool := ink.isOfClass .word

/-- Whether what is drawn so counts as a character, if that can be told. -/
def isChar? (c : Char) (ink : Ink) : Option Bool :=
  if phraseChars.contains c then
    match ink with
    | .char d => some (c == d)
    | .digit => some false
    | .blank => if c = ' ' then none else some false
  else none

variable {ink : Ink} {d : Char}

theorem has_eq (k : CharClass) (drawn : ink.Draws d) : k.has d = ink.isOfClass k := by
  cases ink with
  | char c =>
      rw [isOfClass, ← drawn.2]
      cases k <;> simp [CharClass.has]
  | digit =>
      have digit : isDigit d = true := drawn
      have word := isWord_of_isDigit digit
      have noBlank := isBlank_eq_false_of_isDigit digit
      cases k <;> simp [CharClass.has, isOfClass, digit, word, noBlank] <;> decide +kernel
  | blank =>
      have blank : isBlank d = true := drawn
      have noWord := isWord_eq_false_of_isBlank blank
      have noDigit : isDigit d = false := by
        rw [Bool.eq_false_iff]
        intro digit
        rw [isWord_of_isDigit digit] at noWord
        cases noWord
      cases k <;> simp [CharClass.has, isOfClass, blank, noWord, noDigit] <;> decide +kernel

theorem isWord_eq (drawn : ink.Draws d) : Text.isWord d = ink.isWord := has_eq .word drawn

theorem sameLetter_eq {c : Char} {same : Bool} (drawn : ink.Draws d)
    (told : ink.isChar? c = some same) : sameLetter c d = same := by
  unfold isChar? at told
  split at told
  next phrase =>
    have mem := List.contains_iff_mem.mp phrase
    cases ink with
    | char d' =>
        have apart : (phraseChars.all fun c => phraseChars.all fun d =>
            sameLetter c d == (c == d)) = true := by
          decide +kernel
        have here := List.all_eq_true.mp (List.all_eq_true.mp apart c mem) d' drawn.1
        rw [← Option.some.inj told, ← sameLetter_toLower, drawn.2]
        exact eq_of_beq here
    | digit =>
        rw [← Option.some.inj told, Bool.eq_false_iff]
        intro counts
        have zero := (face_eq_of_sameLetter mem counts).symm.trans (face_of_isDigit drawn)
        rw [zero] at mem
        exact absurd mem (by decide)
    | blank =>
        simp only at told
        split at told
        · cases told
        next noSpace =>
          rw [← Option.some.inj told, Bool.eq_false_iff]
          intro counts
          exact noSpace ((face_eq_of_sameLetter mem counts).symm.trans (face_of_isBlank drawn))
  next => cases told

end Ink

end FilmQuery
