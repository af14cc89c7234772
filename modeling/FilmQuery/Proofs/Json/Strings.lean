/-
# Strings read back

A character is written as itself, as an escape of two characters, or by the units of its code
(`codesOf`), and each of these reads as the same codes (`stringCodes?_stringChar`).  The units of
the characters of a text join to the text again, as no character is half of a pair
(`joinUnits?_codes`).  So a string reads back (`readString_stringText`).
-/
import FilmQuery.Json.Printer
import FilmQuery.Json.Reader
import Mathlib.Tactic.NormNum

namespace FilmQuery.Json

open Text (hex hexValue?)

section Units

theorem hexValue?_digitChar : ∀ n < 16, hexValue? (Nat.digitChar n) = some n := by decide

/-- Four hexadecimal digits read as the number of sixteen bits that they write. -/
theorem stringCodes?_unitEscape {unit : ℕ} (small : unit < 0x10000) (rest : List Char) :
    stringCodes? (unitEscape unit ++ rest) =
      (stringCodes? rest).map fun (codes, after) => (unit :: codes, after) := by
  have value (n : ℕ) : hexValue? (Nat.digitChar (n % 16)) = some (n % 16) :=
    hexValue?_digitChar _ (Nat.mod_lt _ (by norm_num))
  have whole : (((unit / 16 / 16 / 16 % 16 * 16 + unit / 16 / 16 % 16) * 16 + unit / 16 % 16) * 16 +
      unit % 16) = unit := by omega
  simp only [unitEscape, hex, List.nil_append, List.cons_append, stringCodes?, unit?, value,
    Option.bind_eq_bind, Option.bind_some, Option.pure_def, whole]
  cases stringCodes? rest <;> rfl

/-- The codes that a character is written with: two units if it is written by a code beyond sixteen
bits, and its own code otherwise. -/
def codesOf (ascii : Bool) (c : Char) : List ℕ :=
  if ascii && decide (0x10000 ≤ c.toNat) then
    [0xD800 + (c.toNat - 0x10000) / 0x400, 0xDC00 + (c.toNat - 0x10000) % 0x400]
  else [c.toNat]

end Units

variable {ascii : Bool} {c : Char}

theorem toNat_lt (c : Char) : c.toNat < 0x110000 := by
  rcases c.valid with low | ⟨_, high⟩
  · exact lt_trans low (by norm_num)
  · exact high

/-- No character has the code of half a pair. -/
theorem toNat_not_half (c : Char) : c.toNat < 0xD800 ∨ 0xE000 ≤ c.toNat := by
  rcases c.valid with low | ⟨high, _⟩
  · exact .inl low
  · exact .inr high

theorem stringCodes?_codeEscape (narrow : c.toNat < 0x10000 ∨ ascii = true) (rest : List Char) :
    stringCodes? (codeEscape c ++ rest) =
      (stringCodes? rest).map fun (codes, after) => (codesOf ascii c ++ codes, after) := by
  have bound := toNat_lt c
  by_cases small : c.toNat < 0x10000
  · have own : codesOf ascii c = [c.toNat] := by
      simp only [codesOf, Nat.not_le.mpr small, decide_false, Bool.and_false, Bool.false_eq_true,
        if_false]
    rw [codeEscape, if_pos small, stringCodes?_unitEscape small, own]
    rfl
  · have pair : codesOf ascii c =
        [0xD800 + (c.toNat - 0x10000) / 0x400, 0xDC00 + (c.toNat - 0x10000) % 0x400] := by
      rw [codesOf, narrow.resolve_left small, Bool.true_and, if_pos]
      exact decide_eq_true (Nat.le_of_not_lt small)
    simp only [codeEscape, if_neg small, List.append_assoc]
    rw [stringCodes?_unitEscape (by omega), stringCodes?_unitEscape (by omega), pair,
      Option.map_map]
    rfl

/-- A character that is written as itself reads as its own code. -/
theorem stringCodes?_cons (noQuote : c ≠ '"') (noBackslash : c ≠ '\\') (visible : ¬ c.toNat < 0x20)
    (rest : List Char) :
    stringCodes? (c :: rest) =
      (stringCodes? rest).map fun (codes, after) => (c.toNat :: codes, after) := by
  rw [stringCodes?, if_neg visible]
  · exact fun same => noQuote same
  · exact fun _ _ _ _ _ same _ => noBackslash same
  · exact fun _ _ same _ => noBackslash same

/-- Whatever way a character is written, it reads as its codes. -/
theorem stringCodes?_stringChar (ascii : Bool) (c : Char) (rest : List Char) :
    stringCodes? (stringChar ascii c ++ rest) =
      (stringCodes? rest).map fun (codes, after) => (codesOf ascii c ++ codes, after) := by
  have short (e : Char) (known : ∃ d, escaped? e = some d ∧ codesOf ascii c = [d.toNat] ∧ e ≠ 'u') :
      stringCodes? ('\\' :: e :: rest) =
        (stringCodes? rest).map fun (codes, after) => (codesOf ascii c ++ codes, after) := by
    obtain ⟨d, escape, own, other⟩ := known
    rw [stringCodes?, escape, own]
    · cases stringCodes? rest <;> rfl
    · exact fun _ _ _ _ _ same _ => other same
  simp only [stringChar]
  split_ifs with quote backslash newline return_ tab bell feed control foreign
  · exact short _ ⟨'"', rfl, by simp [codesOf, quote], by decide⟩
  · exact short _ ⟨'\\', rfl, by simp [codesOf, backslash], by decide⟩
  · exact short _ ⟨'\n', rfl, by simp [codesOf, newline], by decide⟩
  · exact short _ ⟨'\r', rfl, by simp [codesOf, return_], by decide⟩
  · exact short _ ⟨'\t', rfl, by simp [codesOf, tab], by decide⟩
  · exact short _ ⟨'\x08', rfl, by simp [codesOf, bell], by decide⟩
  · exact short _ ⟨'\x0c', rfl, by simp [codesOf, feed], by decide⟩
  · exact stringCodes?_codeEscape (.inl (lt_trans control (by norm_num))) rest
  · rw [Bool.and_eq_true, decide_eq_true_eq] at foreign
    exact stringCodes?_codeEscape (.inr foreign.1) rest
  · have own : codesOf ascii c = [c.toNat] := by
      rw [codesOf, if_neg]
      rw [Bool.and_eq_true, decide_eq_true_eq] at foreign ⊢
      exact fun wide => foreign ⟨wide.1, le_trans (by norm_num) wide.2⟩
    rw [List.singleton_append, stringCodes?_cons quote backslash control, own]
    rfl

/-- The units of a character join to the character, whatever follows them. -/
theorem joinUnits?_append (ascii : Bool) (c : Char) (codes : List ℕ) :
    joinUnits? (codesOf ascii c ++ codes) = (joinUnits? codes).map (c :: ·) := by
  have bound := toNat_lt c
  have half := toNat_not_half c
  have noHalf : ¬ (0xD800 ≤ c.toNat ∧ c.toNat < 0xE000) := by omega
  unfold codesOf
  split_ifs with wide
  · rw [Bool.and_eq_true, decide_eq_true_eq] at wide
    have whole : 0x10000 + (0xD800 + (c.toNat - 0x10000) / 0x400 - 0xD800) * 0x400 +
        (0xDC00 + (c.toNat - 0x10000) % 0x400 - 0xDC00) = c.toNat := by omega
    rw [List.cons_append, List.singleton_append, joinUnits?, if_pos (by omega), whole,
      Char.ofNat_toNat]
  · cases codes with
    | nil =>
        simp only [List.append_nil, joinUnits?, if_neg noHalf, Char.ofNat_toNat, Option.map_some]
    | cons low codes =>
        rw [List.singleton_append, joinUnits?, if_neg (by omega), if_neg noHalf, Char.ofNat_toNat]

/-- The units of the characters of a text join to the text. -/
theorem joinUnits?_codes (ascii : Bool) (text : List Char) :
    joinUnits? (text.flatMap (codesOf ascii)) = some text := by
  induction text with
  | nil => rfl
  | cons c text ih => rw [List.flatMap_cons, joinUnits?_append, ih, Option.map_some]

theorem stringCodes?_flatMap (ascii : Bool) (text rest : List Char) :
    stringCodes? (text.flatMap (stringChar ascii) ++ '"' :: rest) =
      some (text.flatMap (codesOf ascii), rest) := by
  induction text with
  | nil => rw [List.flatMap_nil, List.nil_append, List.flatMap_nil, stringCodes?]
  | cons c text ih =>
      rw [List.flatMap_cons, List.append_assoc, stringCodes?_stringChar, ih, List.flatMap_cons]
      rfl

/-- A string reads back, whatever its characters. -/
theorem readString_stringText (ascii : Bool) (text : String) (rest : List Char) :
    readString (text.toList.flatMap (stringChar ascii) ++ '"' :: rest) = .ok (text, rest) := by
  simp only [readString, stringCodes?_flatMap, joinUnits?_codes, String.ofList_toList]

end FilmQuery.Json
