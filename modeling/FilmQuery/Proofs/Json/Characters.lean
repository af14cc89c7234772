/-
# The characters of a written value

On one line no control character is written, and in ASCII none beyond (`IsPlain`): strings have
escapes for both, and numbers, words and brackets have neither (`isPlain_write`).
-/
import FilmQuery.Proofs.Json.RoundTrip

namespace FilmQuery.Json

open Text (hex)

section Strings

variable {ascii : Bool} {c d : Char}

/-- The digits of a code are visible, and none is beyond ASCII. -/
theorem of_mem_hex {width n : ℕ} (mem : d ∈ hex width n) : 0x20 ≤ d.toNat ∧ d.toNat < 0x7f := by
  have digit : ∀ k < 16, 0x20 ≤ (Nat.digitChar k).toNat ∧ (Nat.digitChar k).toNat < 0x7f := by
    decide
  induction width generalizing n with
  | zero => cases mem
  | succ width ih =>
      rw [hex, List.mem_append, List.mem_singleton] at mem
      rcases mem with before | rfl
      · exact ih before
      · exact digit _ (Nat.mod_lt _ (by norm_num))

theorem of_mem_codeEscape (mem : d ∈ codeEscape c) : 0x20 ≤ d.toNat ∧ d.toNat < 0x7f := by
  have unit {n : ℕ} (mem : d ∈ unitEscape n) : 0x20 ≤ d.toNat ∧ d.toNat < 0x7f := by
    rw [unitEscape, List.mem_cons, List.mem_cons] at mem
    rcases mem with rfl | rfl | mem
    · decide
    · decide
    · exact of_mem_hex mem
  simp only [codeEscape] at mem
  split_ifs at mem
  · exact unit mem
  · exact (List.mem_append.mp mem).elim unit unit

/-- A character of a string is visible, and in ASCII none is beyond. -/
theorem of_mem_stringChar (mem : d ∈ stringChar ascii c) :
    0x20 ≤ d.toNat ∧ (ascii = true → d.toNat < 0x7f) := by
  have short {e : Char} (visible : 0x20 ≤ e.toNat ∧ e.toNat < 0x7f) (mem : d ∈ ['\\', e]) :
      0x20 ≤ d.toNat ∧ (ascii = true → d.toNat < 0x7f) := by
    rw [List.mem_cons, List.mem_singleton] at mem
    rcases mem with rfl | rfl
    · exact ⟨by decide, fun _ => by decide⟩
    · exact ⟨visible.1, fun _ => visible.2⟩
  have code (mem : d ∈ codeEscape c) : 0x20 ≤ d.toNat ∧ (ascii = true → d.toNat < 0x7f) :=
    ⟨(of_mem_codeEscape mem).1, fun _ => (of_mem_codeEscape mem).2⟩
  unfold stringChar at mem
  split_ifs at mem with _ _ _ _ _ _ _ control foreign
  iterate 7 exact short (by decide) mem
  · exact code mem
  · exact code mem
  · rw [List.mem_singleton.mp mem]
    rw [Bool.and_eq_true, decide_eq_true_eq, not_and, not_le] at foreign
    exact ⟨Nat.le_of_not_lt control, foreign⟩

theorem of_mem_stringText {text : String} (mem : d ∈ stringText ascii text) :
    0x20 ≤ d.toNat ∧ (ascii = true → d.toNat < 0x7f) := by
  rw [stringText, List.mem_cons, List.mem_append, List.mem_flatMap, List.mem_singleton] at mem
  rcases mem with rfl | ⟨c, _, mem⟩ | rfl
  · exact ⟨by decide, fun _ => by decide⟩
  · exact of_mem_stringChar mem
  · exact ⟨by decide, fun _ => by decide⟩

end Strings

/-- Whether a style writes a character: on one line it is no control character, and in ASCII it is
not beyond. -/
def IsPlain (style : JsonStyle) (c : Char) : Prop :=
  (style.indent = none → 0x20 ≤ c.toNat) ∧ (style.ascii = true → c.toNat < 0x7f)

section Pieces

variable {style : JsonStyle} {c : Char}

theorem isPlain_of_visible (low : 0x20 ≤ c.toNat) (high : c.toNat < 0x7f) : IsPlain style c :=
  ⟨fun _ => low, fun _ => high⟩

theorem isPlain_of_all (text : List Char)
    (visible : ∀ c ∈ text, 0x20 ≤ c.toNat ∧ c.toNat < 0x7f) : ∀ c ∈ text, IsPlain style c :=
  fun c mem => isPlain_of_visible (visible c mem).1 (visible c mem).2

theorem isPlain_of_isDigit (digit : c.isDigit = true) : IsPlain style c := by
  obtain ⟨n, small, rfl⟩ := Number.Numeral.exists_of_isDigit digit
  have visible : ∀ k < 10,
      0x20 ≤ (Char.ofNat (48 + k)).toNat ∧ (Char.ofNat (48 + k)).toNat < 0x7f := by
    decide
  exact isPlain_of_visible (visible n small).1 (visible n small).2

theorem isPlain_lineStart (style : JsonStyle) (depth : ℕ) :
    ∀ c ∈ JsonStyle.lineStart style depth, IsPlain style c := by
  unfold JsonStyle.lineStart
  cases line : style.indent with
  | none => exact List.forall_mem_nil _
  | some width =>
      intro c mem
      rcases List.mem_cons.mp mem with rfl | mem
      · exact ⟨fun none => absurd (line.symm.trans none) (Option.some_ne_none _),
          fun _ => by decide⟩
      · rw [List.eq_of_mem_replicate mem]
        exact isPlain_of_visible (by decide) (by decide)

theorem isPlain_separator (style : JsonStyle) (depth : ℕ) :
    ∀ c ∈ JsonStyle.separator style depth, IsPlain style c := by
  have comma : IsPlain style ',' := isPlain_of_visible (by decide) (by decide)
  have space : IsPlain style ' ' := isPlain_of_visible (by decide) (by decide)
  unfold JsonStyle.separator
  split
  · exact List.forall_mem_cons.mpr ⟨comma, isPlain_lineStart style depth⟩
  · exact List.forall_mem_cons.mpr ⟨comma, List.forall_mem_singleton.mpr space⟩

theorem isPlain_intercalate {gap : List Char} {pieces : List (List Char)}
    (between : ∀ c ∈ gap, IsPlain style c)
    (inner : ∀ piece ∈ pieces, ∀ c ∈ piece, IsPlain style c) :
    ∀ c ∈ List.intercalate gap pieces, IsPlain style c := by
  induction pieces with
  | nil => exact List.forall_mem_nil _
  | cons piece pieces ih =>
      obtain ⟨first, others⟩ := List.forall_mem_cons.mp inner
      cases pieces with
      | nil => rwa [List.intercalate_singleton]
      | cons next pieces =>
          rw [List.intercalate_cons_cons, List.append_assoc, List.forall_mem_append,
            List.forall_mem_append]
          exact ⟨first, between, ih others⟩

theorem isPlain_enclose {opening closing : Char} (depth : ℕ) {pieces : List (List Char)}
    (first : IsPlain style opening) (last : IsPlain style closing)
    (inner : ∀ piece ∈ pieces, ∀ c ∈ piece, IsPlain style c) :
    ∀ c ∈ enclose style depth opening closing pieces, IsPlain style c := by
  cases pieces with
  | nil => exact List.forall_mem_cons.mpr ⟨first, List.forall_mem_singleton.mpr last⟩
  | cons piece pieces =>
      rw [enclose, List.forall_mem_cons, List.forall_mem_append, List.forall_mem_append,
        List.forall_mem_append, List.forall_mem_singleton]
      · exact ⟨first, isPlain_lineStart style _,
          isPlain_intercalate (isPlain_separator style _) inner, isPlain_lineStart style _, last⟩
      · exact List.cons_ne_nil _ _

theorem isPlain_stringText (style : JsonStyle) (text : String) :
    ∀ c ∈ stringText style.ascii text, IsPlain style c := fun _ mem =>
  ⟨fun _ => (of_mem_stringText mem).1, (of_mem_stringText mem).2⟩

theorem isPlain_intText (n : ℤ) : ∀ c ∈ intText n, IsPlain style c := by
  have digits : ∀ c ∈ Number.decimalDigits n.natAbs, IsPlain style c := fun c mem =>
    isPlain_of_isDigit (Number.DecimalLayout.isRun_decimalDigits n.natAbs c mem)
  unfold intText
  split
  · exact List.forall_mem_cons.mpr ⟨isPlain_of_visible (by decide) (by decide), digits⟩
  · exact digits

theorem isPlain_realText (x : Number.Binary64) : ∀ c ∈ realText x, IsPlain style c := by
  cases x with
  | nan => exact isPlain_of_all "NaN".toList (by simp)
  | infinite negative =>
      cases negative
      · exact isPlain_of_all "Infinity".toList (by simp)
      · exact isPlain_of_all "-Infinity".toList (by simp)
  | finite negative rank =>
      obtain ⟨p, fraction, text, _⟩ := exists_parts_realText negative rank
      have digits : ∀ c ∈ p.text, 0x20 ≤ c.toNat ∧ c.toNat < 0x7f := fun c mem =>
        of_decide_eq_true (Number.Numeral.Parts.of_mem_text fraction.toIsSound
          (fun c => decide (0x20 ≤ c.toNat ∧ c.toNat < 0x7f)) (by decide) (by decide) mem)
      rw [text]
      cases negative
      · exact isPlain_of_all _ digits
      · exact isPlain_of_all _ (List.forall_mem_cons.mpr ⟨by decide, digits⟩)

end Pieces

section Ends

variable {style : JsonStyle} {opening closing : Char}

theorem head?_enclose (depth : ℕ) (pieces : List (List Char)) :
    (enclose style depth opening closing pieces).head? = some opening := by
  cases pieces <;> rfl

theorem getLast?_enclose (depth : ℕ) (pieces : List (List Char)) :
    (enclose style depth opening closing pieces).getLast? = some closing := by
  cases pieces with
  | nil => rfl
  | cons piece pieces =>
      rw [enclose, ← List.append_assoc, ← List.append_assoc, ← List.cons_append,
        List.getLast?_append_cons]
      · rfl
      · exact List.cons_ne_nil _ _

end Ends

mutual

/-- A style writes a value with its own characters only. -/
theorem isPlain_write (style : JsonStyle) (depth : ℕ) (value : Json) :
    ∀ c ∈ write style depth value, IsPlain style c := by
  match value with
  | .null => exact isPlain_of_all "null".toList (by simp)
  | .bool false => exact isPlain_of_all "false".toList (by simp)
  | .bool true => exact isPlain_of_all "true".toList (by simp)
  | .int n => exact isPlain_intText n
  | .real x => exact isPlain_realText x
  | .str text => exact isPlain_stringText style text
  | .arr items =>
      exact isPlain_enclose depth (isPlain_of_visible (by decide) (by decide))
        (isPlain_of_visible (by decide) (by decide)) (isPlain_writeItems style (depth + 1) items)
  | .obj fields =>
      exact isPlain_enclose depth (isPlain_of_visible (by decide) (by decide))
        (isPlain_of_visible (by decide) (by decide)) (isPlain_writeFields style (depth + 1) fields)

theorem isPlain_writeItems (style : JsonStyle) (depth : ℕ) (items : List Json) :
    ∀ piece ∈ writeItems style depth items, ∀ c ∈ piece, IsPlain style c := by
  match items with
  | [] => exact List.forall_mem_nil _
  | item :: rest =>
      exact List.forall_mem_cons.mpr
        ⟨isPlain_write style depth item, isPlain_writeItems style depth rest⟩

theorem isPlain_writeFields (style : JsonStyle) (depth : ℕ) (fields : List (String × Json)) :
    ∀ piece ∈ writeFields style depth fields, ∀ c ∈ piece, IsPlain style c := by
  have mark {c : Char} (visible : 0x20 ≤ c.toNat ∧ c.toNat < 0x7f) : IsPlain style c :=
    isPlain_of_visible visible.1 visible.2
  match fields with
  | [] => exact List.forall_mem_nil _
  | (key, value) :: rest =>
      refine List.forall_mem_cons.mpr ⟨?_, isPlain_writeFields style depth rest⟩
      rw [List.forall_mem_append, List.forall_mem_cons, List.forall_mem_cons]
      exact ⟨isPlain_stringText style key, mark (by decide), mark (by decide),
        isPlain_write style depth value⟩

end

end FilmQuery.Json
