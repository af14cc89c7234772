/-
# Texts that are kept as years

A group of some pattern may have met any text at all, and four characters that write a whole number
are kept as a year (`year?_eq_some_iff`).  Four digits of any script do, and so do fewer digits that
a sign, underscores or blanks fill up to four characters; nothing else does.  The groups of the
rules of record meet nothing but digits, so there every year has four of them.
-/
import FilmQuery.Proofs.Number.Integers
import FilmQuery.Proofs.Rule.Meanings

namespace FilmQuery.Extractor

open Number.Numeral (IsInteger integer?_isSome_iff isMark longestInteger)
open Text (isDigit)

/-- A text is kept as a year, and then as it is typed, if and only if it has four characters that
are digits, or that write a whole number with a mark among them. -/
theorem year?_eq_some_iff (text : List Char) (year : String) :
    year? text = some year ↔
      year = String.ofList text ∧ text.length = 4 ∧
        ((∀ c ∈ text, isDigit c = true) ∨ (IsInteger text ∧ ∃ c ∈ text, isMark c = true)) := by
  constructor
  · intro kept
    rw [year?] at kept
    split at kept
    next written =>
      obtain ⟨four, whole⟩ := written
      have integer := (integer?_isSome_iff.mp whole).1
      refine ⟨(Option.some.inj kept).symm, four, ?_⟩
      by_cases digits : ∀ c ∈ text, isDigit c = true
      · exact .inl digits
      · obtain ⟨c, mem, noDigit⟩ : ∃ c ∈ text, ¬ isDigit c = true := by simpa using digits
        exact .inr ⟨integer, c, mem, (integer.isDigit_or_isMark c mem).resolve_left noDigit⟩
    next => cases kept
  · rintro ⟨rfl, four, digits | ⟨integer, _⟩⟩
    · exact year?_eq ⟨four, digits⟩
    · have short : text.countP isDigit ≤ longestInteger :=
        List.countP_le_length.trans (by rw [four]; decide)
      rw [year?, if_pos ⟨four, integer?_isSome_iff.mpr ⟨integer, short⟩⟩]

example : year? " 12 ".toList = some " 12 " := by decide

/-- A number with a sign is kept as a year where a pattern takes it. -/
theorem year?_signed :
    ¬ ∀ (table : Table), ∀ rule ∈ table.rules, rule.extractor = some yearExact →
      ∀ (query : List Char), ∀ m ∈ rule.shape.find query, ∀ text, m.group 1 = .ok (some text) →
        year? text = if text.length = 4 ∧ text.all isDigit = true then
          some (String.ofList text) else none := by
  have found : (DefaultRules.phrase r"in (.{4})").find "in +123".toList =
      [⟨0, 7, "in +123".toList, 1, [(1, "+123".toList)]⟩] := by
    decide +kernel
  intro digitsOnly
  have dropped := digitsOnly
    ⟨[DefaultRules.reading r"in (.{4})" .yearExact yearExact], by decide +kernel⟩ _
    (List.mem_singleton_self _) rfl "in +123".toList _ (found ▸ List.mem_singleton_self _)
    "+123".toList rfl
  have sign : ¬ "+123".toList.all isDigit = true := by decide
  rw [if_neg (not_and_of_not_right _ sign)] at dropped
  exact absurd dropped (by decide)

end FilmQuery.Extractor
