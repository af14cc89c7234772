/-
# Numbers read back

A number is read to where it ends (`IsEnd`): to a character that is no digit and marks no fraction.
The digits of a whole number read as the number, if there are not too many
(`readNumber_decimalDigits`), and a numeral that is marked as a fraction reads as the double of its
decimal (`readNumber_text`).  So every number reads back from its text (`readLeaf_intText`,
`readLeaf_realText`).
-/
import FilmQuery.Json.Printer
import FilmQuery.Json.Reader
import FilmQuery.Proofs.Number.Shortest

namespace FilmQuery.Json

open Number (Binary64 decimalDigits DecimalLayout.isRun_decimalDigits)
open Number.Numeral

/-- A whole number is too long if it has more digits than the longest one that is read. -/
theorem isLong_iff {n : ℤ} : isLong n = true ↔ 10 ^ longestInteger ≤ n.natAbs := by
  rw [isLong, decide_eq_true_iff, ← not_le, decimalDigits,
    Nat.length_toDigits_le_iff (by norm_num) (by decide), not_lt]

/-- Whether a number ends before a text. -/
def IsEnd (rest : List Char) : Prop :=
  ∀ c ∈ rest.head?, c.isDigit = false ∧ c ≠ '.' ∧ c ≠ 'e' ∧ c ≠ 'E'

variable {negative : Bool} {whole rest : List Char} {p : Parts}

namespace IsEnd

theorem noDigit (ends : IsEnd rest) : rest.head?.any Char.isDigit = false := by
  cases rest with
  | nil => rfl
  | cons c rest => exact (ends c rfl).1

theorem of_head {c : Char} (noDigit : c.isDigit = false)
    (noMark : c ≠ '.' ∧ c ≠ 'e' ∧ c ≠ 'E') (rest : List Char) : IsEnd (c :: rest) := by
  rintro _ ⟨⟩
  exact ⟨noDigit, noMark⟩

end IsEnd

section Spans

theorem spanDigits_append (run : IsRun whole) (other : rest.head?.any Char.isDigit = false) :
    spanDigits (whole ++ rest) = (whole, rest) := by
  obtain ⟨taken, left⟩ := split_run rest run other
  rw [spanDigits, taken, left]

theorem spanWhole_append (run : IsRun whole) (nonempty : whole ≠ [])
    (lead : whole = ['0'] ∨ whole.head? ≠ some '0') (other : rest.head?.any Char.isDigit = false) :
    spanWhole (whole ++ rest) = (whole, rest) := by
  rcases lead with rfl | noZero
  · rfl
  · obtain ⟨c, digits, rfl⟩ := List.exists_cons_of_ne_nil nonempty
    rw [List.head?_cons, ne_eq, Option.some.injEq] at noZero
    rw [List.cons_append, spanWhole, ← List.cons_append, spanDigits_append run other]
    exact fun _ same => noZero (List.cons.inj same).1

/-- What follows the whole part of a numeral is read as its places. -/
theorem spanFraction_text (sound : p.IsSound) (ends : IsEnd rest) :
    spanFraction ((if p.places = [] then [] else '.' :: p.places) ++
      (Parts.exponentText p.exponent ++ rest)) =
      (p.places, Parts.exponentText p.exponent ++ rest) := by
  by_cases none : p.places = []
  · rw [if_pos none, List.nil_append, none, spanFraction]
    intro more same
    generalize p.exponent = e at same
    rcases e with _ | ⟨negative, digits⟩
    · exact (ends '.' (congrArg List.head? same)).2.1 rfl
    · cases (List.cons.inj same).1
  · have other : (Parts.exponentText p.exponent ++ rest).head?.any Char.isDigit = false := by
      rcases p.exponent with _ | ⟨negative, digits⟩
      · exact ends.noDigit
      · rfl
    rw [if_neg none, List.cons_append, spanFraction]
    simp only [spanDigits_append sound.places other]
    split
    next same => exact absurd (Prod.mk.inj same).1 none
    next => rfl

/-- What follows the places of a numeral is read as its exponent. -/
theorem spanExponent_text (sound : p.IsSound) (ends : IsEnd rest) :
    spanExponent (Parts.exponentText p.exponent ++ rest) =
      (p.exponent.map fun e => Parts.exponentValue (some e), rest) := by
  have digitsOf := sound.exponent
  generalize p.exponent = e at digitsOf ⊢
  rcases e with _ | ⟨negative, digits⟩
  · cases rest with
    | nil => rfl
    | cons c rest =>
        obtain ⟨-, -, small, large⟩ := ends c rfl
        have other : (c == 'e' || c == 'E') = false := by simp [small, large]
        simp only [Parts.exponentText, List.nil_append, spanExponent, other, Bool.false_eq_true,
          if_false, Option.map_none]
  · obtain ⟨run, nonempty⟩ := digitsOf _ rfl
    obtain ⟨d, digits, rfl⟩ := List.exists_cons_of_ne_nil nonempty
    have split := spanDigits_append run ends.noDigit
    cases negative <;>
      simp only [Parts.exponentText, List.cons_append, spanExponent, sign, beq_self_eq_true,
        Bool.true_or, if_true, if_false, Bool.false_eq_true] <;>
      rw [← List.cons_append, split] <;> rfl

end Spans

/-- The digits of a whole number read as the number, if there are not too many of them. -/
theorem readNumber_decimalDigits (negative : Bool) (n : ℕ) (ends : IsEnd rest) :
    readNumber negative (decimalDigits n ++ rest) =
      if longestInteger < (decimalDigits n).length then
        .error (.longInteger (decimalDigits n).length)
      else .ok (.int (if negative then -(n : ℤ) else n), rest) := by
  have lead : decimalDigits n = ['0'] ∨ (decimalDigits n).head? ≠ some '0' := by
    rcases Nat.eq_zero_or_pos n with rfl | pos
    · exact .inl rfl
    · exact .inr (head?_decimalDigits pos)
  have nonempty : decimalDigits n ≠ [] := Nat.toDigits_ne_nil
  have fraction : spanFraction rest = ([], rest) :=
    spanFraction_text (p := ⟨['0'], [], none⟩)
      ⟨DecimalLayout.isRun_decimalDigits 0, by simp, by simp [IsRun], by simp⟩ ends
  have exponent : spanExponent rest = (none, rest) :=
    spanExponent_text (p := ⟨['0'], [], none⟩)
      ⟨DecimalLayout.isRun_decimalDigits 0, by simp, by simp [IsRun], by simp⟩ ends
  rw [readNumber, spanWhole_append (DecimalLayout.isRun_decimalDigits n) nonempty lead ends.noDigit]
  simp only [List.isEmpty_eq_false_iff.mpr nonempty, Bool.false_eq_true, if_false, fraction,
    exponent, List.isEmpty_nil, Option.isNone_none, Bool.and_self, if_true,
    digitsValue_decimalDigits]

/-- A numeral that is marked as a fraction reads as the double of its decimal. -/
theorem readNumber_text (negative : Bool) (fraction : p.IsFraction) (ends : IsEnd rest) :
    readNumber negative (p.text ++ rest) =
      .ok (.real (.ofDecimal negative p.decimal.coefficient p.decimal.exponent), rest) := by
  have sound := fraction.toIsSound
  have other : ((if p.places = [] then [] else '.' :: p.places) ++
      (Parts.exponentText p.exponent ++ rest)).head?.any Char.isDigit = false := by
    split
    · rcases p.exponent with _ | ⟨negative, digits⟩
      · exact ends.noDigit
      · rfl
    · rfl
  have marked : (p.places.isEmpty && (p.exponent.map fun e =>
      Parts.exponentValue (some e)).isNone) = false := by
    rw [Bool.and_eq_false_iff, List.isEmpty_eq_false_iff, Option.isNone_map,
      Option.isNone_eq_false_iff, Option.isSome_iff_ne_none]
    exact fraction.mark
  have value : (p.exponent.map fun e => Parts.exponentValue (some e)).getD 0 =
      Parts.exponentValue p.exponent := by
    cases p.exponent <;> rfl
  rw [Parts.text, List.append_assoc, List.append_assoc, readNumber,
    spanWhole_append sound.whole sound.whole_ne_nil fraction.lead other]
  simp only [List.isEmpty_eq_false_iff.mpr sound.whole_ne_nil, Bool.false_eq_true, if_false,
    spanFraction_text sound ends, spanExponent_text sound ends, marked, value]
  rfl

section Words

theorem word?_of_ne {c d : Char} (other : c ≠ d) (word rest : List Char) :
    word? (c :: word) (d :: rest) = none := by
  rw [word?, if_neg]
  simp [List.isPrefixOf, other]

variable {c : Char}

/-- What begins with a digit is read as a number. -/
theorem readLeaf_digit (digit : c.isDigit = true) (rest : List Char) :
    readLeaf (c :: rest) = readNumber false (c :: rest) := by
  have apart {d : Char} (noDigit : d.isDigit = false) : d ≠ c := fun same => by
    rw [same, digit] at noDigit
    cases noDigit
  have other {d : Char} (noDigit : d.isDigit = false) (word : List Char) :
      word? (d :: word) (c :: rest) = none := word?_of_ne (apart noDigit) word rest
  have null : word? "null".toList (c :: rest) = none := other (d := 'n') rfl _
  have yes : word? "true".toList (c :: rest) = none := other (d := 't') rfl _
  have no : word? "false".toList (c :: rest) = none := other (d := 'f') rfl _
  have nan : word? "NaN".toList (c :: rest) = none := other (d := 'N') rfl _
  have infinity : word? "Infinity".toList (c :: rest) = none := other (d := 'I') rfl _
  have negative : word? "-Infinity".toList (c :: rest) = none := other (d := '-') rfl _
  simp only [readLeaf, null, yes, no, nan, infinity, negative]
  split
  next same => exact absurd (List.cons.inj same).1.symm (apart rfl)
  next => rfl

/-- What begins with a sign and a digit is read as a negative number. -/
theorem readLeaf_minus (digit : c.isDigit = true) (rest : List Char) :
    readLeaf ('-' :: c :: rest) = readNumber true (c :: rest) := by
  have apart : ('I' == c) = false := beq_eq_false_iff_ne.mpr fun same => by
    rw [← same] at digit
    cases digit
  have negative : word? "-Infinity".toList ('-' :: c :: rest) = none := by
    have letters : "-Infinity".toList = '-' :: 'I' :: "nfinity".toList := rfl
    rw [letters, word?, if_neg]
    simp [List.isPrefixOf, apart]
  rw [readLeaf, negative]
  rfl

end Words

/-- A number is read with the sign before its digits. -/
theorem readLeaf_signed {digits : List Char} {read : Except JsonError (Json × List Char)}
    (first : ∃ c tail, digits = c :: tail ∧ c.isDigit = true)
    (number : readNumber negative (digits ++ rest) = read) :
    readLeaf ((if negative then '-' :: digits else digits) ++ rest) = read := by
  obtain ⟨c, tail, rfl, digit⟩ := first
  cases negative
  · exact (readLeaf_digit digit _).trans number
  · exact (readLeaf_minus digit _).trans number

/-- A whole number reads back, if it is not too long. -/
theorem readLeaf_intText (n : ℤ) (ends : IsEnd rest) :
    readLeaf (intText n ++ rest) =
      if isLong n then .error (.longInteger (decimalDigits n.natAbs).length)
      else .ok (.int n, rest) := by
  have run := DecimalLayout.isRun_decimalDigits n.natAbs
  obtain ⟨c, tail, digits⟩ := List.exists_cons_of_ne_nil
    (show decimalDigits n.natAbs ≠ [] from Nat.toDigits_ne_nil)
  have number := readNumber_decimalDigits (decide (n < 0)) n.natAbs ends
  have value : (if decide (n < 0) = true then -((n.natAbs : ℕ) : ℤ) else (n.natAbs : ℕ)) = n := by
    simp only [decide_eq_true_eq]
    split <;> omega
  rw [value] at number
  have read := readLeaf_signed ⟨c, tail, digits, run c (by simp [digits])⟩ number
  simpa only [intText, isLong, decide_eq_true_eq] using read

/-- A finite double is written by its sign and a numeral that gives it. -/
theorem exists_parts_realText (negative : Bool) (rank : Fin Number.rankCount) :
    ∃ p : Parts, p.IsFraction ∧
      realText (.finite negative rank) = (if negative then '-' :: p.text else p.text) ∧
      Binary64.ofDecimal negative p.decimal.coefficient p.decimal.exponent =
        .finite negative rank := by
  obtain ⟨p, fraction, text, value⟩ := Binary64.exists_parts_shortestText rank
  refine ⟨p, fraction, ?_, value negative⟩
  simp only [realText, Binary64.shortestText, Binary64.textWith, String.toList_ofList, text]

/-- A double reads back, also those that are written by name. -/
theorem readLeaf_realText (x : Binary64) (ends : IsEnd rest) :
    readLeaf (realText x ++ rest) = .ok (.real x, rest) := by
  cases x with
  | nan => rfl
  | infinite negative => cases negative <;> rfl
  | finite negative rank =>
      obtain ⟨p, fraction, text, value⟩ := exists_parts_realText negative rank
      obtain ⟨c, tail, digits⟩ := List.exists_cons_of_ne_nil fraction.whole_ne_nil
      have first : ∃ c tail, p.text = c :: tail ∧ c.isDigit = true := by
        rw [Parts.text, digits]
        exact ⟨c, _, rfl, fraction.whole c (by simp [digits])⟩
      have number : readNumber negative (p.text ++ rest) = _ :=
        readNumber_text negative fraction ends
      rw [value] at number
      rw [text]
      exact readLeaf_signed first number

end FilmQuery.Json
