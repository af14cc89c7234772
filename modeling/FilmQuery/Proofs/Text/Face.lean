/-
# Faces of characters

Phrases are written with few characters: letters in any case, digits of any script, blanks of any
kind and some signs.  The face of a character is the one that stands for all those that a phrase
treats alike.  Faces tell the characters of phrases apart (`face_eq_of_sameLetter`) and keep what
is part of a word (`isWord_face`), so a question about all texts of a phrase can be settled on the
few faces that they have.
-/
import FilmQuery.Proofs.Text.Separator

namespace FilmQuery.Text

/-- The character that stands for a character in questions about phrases. -/
def face (d : Char) : Char :=
  if isDigit d then '0'
  else if isBlank d then ' '
  else (phraseChars.find? (sameLetter · d)).getD d

@[simp]
theorem face_of_isDigit {d : Char} (digit : isDigit d = true) : face d = '0' := by
  rw [face, if_pos digit]

@[simp]
theorem face_of_isBlank {d : Char} (blank : isBlank d = true) : face d = ' ' := by
  have noDigit : isDigit d = false := by
    rw [Bool.eq_false_iff]
    intro digit
    have word := isWord_of_isDigit digit
    rw [isWord_eq_false_of_isBlank blank] at word
    exact Bool.false_ne_true word
  simp [face, noDigit, blank]

/-- Whatever counts as a character of a phrase has the face of that character. -/
theorem face_eq_of_sameLetter {c d : Char} (phrase : c ∈ phraseChars)
    (same : sameLetter c d = true) : face d = c := by
  have forms : (phraseChars.all fun c => (smallForms c).all fun small =>
      small.toNat != 0 && (small.toNat :: sources small.toNat).all fun n =>
        face (Char.ofNat n) == c) = true := by decide +kernel
  have here := holds_of_sameLetter (fun d => face d == c)
    (List.all_eq_true.mp forms c phrase) same
  exact eq_of_beq here

/-- Nothing but the sign itself counts as a sign. -/
theorem eq_of_sameLetter {c d : Char} (sign : c ∈ ['-', '.', '+', ' '])
    (same : sameLetter c d = true) : d = c := by
  have alone : (['-', '.', '+', ' '].all fun c => (smallForms c).all fun small =>
      small.toNat != 0 && (small.toNat :: sources small.toNat).all fun n =>
        Char.ofNat n == c) = true := by decide
  exact eq_of_beq (holds_of_sameLetter (· == c) (List.all_eq_true.mp alone c sign) same)

/-- A character is part of a word if and only if its face is. -/
theorem isWord_face (d : Char) : isWord (face d) = isWord d := by
  have forms : (phraseChars.all fun c => (smallForms c).all fun small =>
      small.toNat != 0 && (small.toNat :: sources small.toNat).all fun n =>
        isWord c == isWord (Char.ofNat n)) = true := by decide +kernel
  unfold face
  split
  next digit =>
    rw [isWord_of_isDigit digit]
    decide +kernel
  next =>
    split
    next blank =>
      rw [isWord_eq_false_of_isBlank blank]
      decide +kernel
    next =>
      cases found : phraseChars.find? (sameLetter · d) with
      | none => rfl
      | some c =>
          have same : sameLetter c d = true := by
            simpa using List.find?_some (p := (sameLetter · d)) found
          have here := holds_of_sameLetter (fun d => isWord c == isWord d)
            (List.all_eq_true.mp forms c (List.mem_of_find?_eq_some found)) same
          exact eq_of_beq here

end FilmQuery.Text
