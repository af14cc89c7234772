/-
# Literals are on one line

A value in a message is shown on one line, whatever texts are in it: a quoted literal escapes every
line end (`Text.isLine_quoted`), numbers have none, and what stands between the parts of a list or
an object has none either (`Json.isLine_literal`).
-/
import FilmQuery.Json.Literal
import FilmQuery.Proofs.Number.Shown

namespace FilmQuery

open Number (Binary64 Decimal DecimalLayout decimalDigits)

namespace Text

/-- Whether a text is on one line. -/
def IsLine (text : List Char) : Prop := '\n' ∉ text

instance (text : List Char) : Decidable (IsLine text) := inferInstanceAs (Decidable (¬ _))

variable {first second text : List Char}

@[simp] theorem isLine_nil : IsLine [] := List.not_mem_nil

@[simp] theorem isLine_cons {c : Char} : IsLine (c :: text) ↔ c ≠ '\n' ∧ IsLine text := by
  rw [IsLine, List.mem_cons, not_or, IsLine, ne_comm]

@[simp] theorem isLine_append : IsLine (first ++ second) ↔ IsLine first ∧ IsLine second := by
  rw [IsLine, List.mem_append, not_or, IsLine, IsLine]

theorem IsLine.of_subset (line : IsLine text) (part : first ⊆ text) : IsLine first :=
  fun mem => line (part mem)

theorem isLine_flatMap {f : Char → List Char} (each : ∀ c ∈ text, IsLine (f c)) :
    IsLine (text.flatMap f) := fun mem => by
  obtain ⟨c, inText, here⟩ := List.mem_flatMap.mp mem
  exact each c inText here

theorem isLine_intercalate {separator : List Char} {pieces : List (List Char)}
    (between : IsLine separator) (each : ∀ piece ∈ pieces, IsLine piece) :
    IsLine (separator.intercalate pieces) := by
  induction pieces with
  | nil => exact isLine_nil
  | cons piece pieces ih =>
      cases pieces with
      | nil => simpa using each piece List.mem_cons_self
      | cons next pieces =>
          rw [List.intercalate_cons_cons, isLine_append, isLine_append]
          exact ⟨⟨each piece List.mem_cons_self, between⟩,
            ih fun piece mem => each piece (List.mem_cons_of_mem _ mem)⟩

theorem isLine_hex (width n : Nat) : IsLine (hex width n) := by
  induction width generalizing n with
  | zero => exact isLine_nil
  | succ width ih =>
      have digit : Nat.digitChar (n % 16) ≠ '\n' := by
        have lt := Nat.mod_lt n (show 0 < 16 by decide)
        generalize n % 16 = m at lt
        revert m
        decide
      rw [hex, isLine_append]
      exact ⟨ih (n / 16), by simp [digit]⟩

/-- Inside quotes a line end is escaped, as it has no visible form. -/
theorem isLine_quotedChar {quote : Char} (other : quote ≠ '\n') (c : Char) :
    IsLine (quotedChar quote c) := by
  unfold quotedChar
  split_ifs with special tab newline back visible short long
  · have here : c ≠ '\n' := by
      rcases special with rfl | rfl
      · exact other
      · decide
    simpa using here
  · simp
  · simp
  · simp
  · simpa using newline
  · simpa using isLine_hex 2 c.toNat
  · simpa using isLine_hex 4 c.toNat
  · simpa using isLine_hex 8 c.toNat

theorem isLine_quoted (text : List Char) : IsLine (quoted text) := by
  have quote : quoteFor text ≠ '\n' := by
    unfold quoteFor
    split <;> decide
  rw [quoted, isLine_cons, isLine_append]
  exact ⟨quote, isLine_flatMap fun c _ => isLine_quotedChar quote c, by simpa using quote⟩

end Text

open Text (IsLine isLine_nil isLine_cons isLine_append isLine_intercalate)

namespace Number

open Numeral (IsRun)
open DecimalLayout (significant isRun_decimalDigits isRun_significant isRun_replicate)

theorem isLine_of_isRun {digits : List Char} (run : IsRun digits) : IsLine digits := fun mem =>
  absurd (run _ mem) (by decide)

theorem isLine_decimalDigits (n : Nat) : IsLine (decimalDigits n) :=
  isLine_of_isRun (isRun_decimalDigits n)

theorem isLine_exponentText (e : Int) : IsLine (DecimalLayout.exponentText e) := by
  have digits := isLine_decimalDigits e.natAbs
  unfold DecimalLayout.exponentText
  dsimp only
  split_ifs <;> simp [digits]

/-- Numerals are made of digits, a point, a sign and the letter of the exponent. -/
theorem isLine_text (layout : DecimalLayout) (d : Decimal) : IsLine (layout.text d) := by
  unfold DecimalLayout.text
  extract_lets all leading digits whole
  have line : IsLine digits := by
    simp only [digits]
    split
    · simp
    · exact isLine_of_isRun (isRun_significant d)
  clear_value digits leading
  have zeros (n : Nat) : IsLine (List.replicate n '0') := isLine_of_isRun (isRun_replicate n)
  have front (n : Nat) : IsLine (digits.take n) := line.of_subset (List.take_subset n digits)
  have back (n : Nat) : IsLine (digits.drop n) := line.of_subset (List.drop_subset n digits)
  split_ifs <;> simp [-List.drop_one, line, zeros, front, back, isLine_exponentText]

theorem isLine_textWith {write : Nat → List Char} (each : ∀ rank, IsLine (write rank))
    (x : Binary64) : IsLine (x.textWith write) := by
  cases x with
  | finite negative rank => cases negative <;> simp [Binary64.textWith, each]
  | infinite negative => cases negative <;> simp [Binary64.textWith]
  | nan => simp [Binary64.textWith]

theorem isLine_shortestText (x : Binary64) : IsLine x.shortestText.toList := by
  rw [Binary64.shortestText, String.toList_ofList]
  exact isLine_textWith (fun _ => isLine_text _ _) x

theorem isLine_significantText (digits : Nat) (x : Binary64) :
    IsLine (x.significantText digits).toList := by
  rw [Binary64.significantText, String.toList_ofList]
  exact isLine_textWith (fun _ => isLine_text _ _) x

end Number

namespace Json

theorem isLine_intText (n : Int) : IsLine (intText n) := by
  have digits := Number.isLine_decimalDigits n.natAbs
  unfold intText
  split <;> simp [digits]

theorem isLine_quotedString (text : String) : IsLine (Text.quotedString text).toList := by
  rw [Text.quotedString, String.toList_ofList]
  exact Text.isLine_quoted text.toList

/-- The parts of a list or an object, set one behind the other. -/
theorem isLine_parts {opening closing : String} {pieces : List String}
    (start : IsLine opening.toList) (stop : IsLine closing.toList)
    (each : ∀ piece ∈ pieces, IsLine piece.toList) :
    IsLine (opening ++ ", ".intercalate pieces ++ closing).toList := by
  rw [String.toList_append, String.toList_append, String.toList_intercalate, isLine_append,
    isLine_append]
  refine ⟨⟨start, isLine_intercalate (by simp) fun piece mem => ?_⟩, stop⟩
  obtain ⟨text, inPieces, rfl⟩ := List.mem_map.mp mem
  exact each text inPieces

mutual

/-- A message shows every value on one line. -/
theorem isLine_literal : (value : Json) → IsLine value.literal.toList
  | .null | .bool true | .bool false => by simp [literal]
  | .int n => by
    rw [literal, String.toList_ofList]
    exact isLine_intText n
  | .real x => Number.isLine_shortestText x
  | .str text => isLine_quotedString text
  | .arr items => by
    rw [literal]
    exact isLine_parts (by simp) (by simp) (isLine_itemLiterals items)
  | .obj fields => by
    rw [literal]
    exact isLine_parts (by simp) (by simp) (isLine_fieldLiterals fields)

theorem isLine_itemLiterals :
    (items : List Json) → ∀ piece ∈ itemLiterals items, IsLine piece.toList
  | [] => by simp [itemLiterals]
  | item :: rest => by
    rw [itemLiterals, List.forall_mem_cons]
    exact ⟨isLine_literal item, isLine_itemLiterals rest⟩

theorem isLine_fieldLiterals :
    (fields : List (String × Json)) → ∀ piece ∈ fieldLiterals fields, IsLine piece.toList
  | [] => by simp [fieldLiterals]
  | (key, value) :: rest => by
    rw [fieldLiterals, List.forall_mem_cons, String.toList_append, String.toList_append,
      isLine_append, isLine_append]
    exact ⟨⟨⟨isLine_quotedString key, by simp⟩, isLine_literal value⟩, isLine_fieldLiterals rest⟩

end

end Json

end FilmQuery
