/-
# Values read back

A written value reads back in whatever style it is written (`read_print`), if no object in it has
a key twice, no whole number is longer than is read, and there is room for all open brackets
(`IsReadable`).  Then it can be written, too (`fault?_of_isReadable`).  A longer number is refused
(`read_intText_of_isLong`).  The proof follows the value:
what is between the pieces of a container is one comma and blanks, or blanks alone, so that each
piece is read to its end by the theorem for that piece.  A bracket or a comma stands for every other
call of the reader, so for what was written the length of the text is fuel enough.
-/
import FilmQuery.Proofs.Json.Numbers
import FilmQuery.Proofs.Json.Strings
import FilmQuery.Proofs.Record

namespace FilmQuery

open Number (decimalDigits Numeral.longestInteger)

namespace Json

/-- What holds of values without parts, and of a list or an object if it holds of its parts, holds
of every value. -/
theorem inParts {motive : Json → Prop} (leaf : ∀ value, value.isLeaf = true → motive value)
    (arr : ∀ items, (∀ item ∈ items, motive item) → motive (.arr items))
    (obj : ∀ fields, (∀ field ∈ fields, motive field.2) → motive (.obj fields)) (value : Json) :
    motive value :=
  @Json.rec motive (fun items => ∀ item ∈ items, motive item)
    (fun fields => ∀ field ∈ fields, motive field.2) (fun field => motive field.2)
    (leaf _ rfl) (fun _ => leaf _ rfl) (fun _ => leaf _ rfl) (fun _ => leaf _ rfl)
    (fun _ => leaf _ rfl) arr obj
    (List.forall_mem_nil _) (fun _ _ first rest => List.forall_mem_cons.mpr ⟨first, rest⟩)
    (List.forall_mem_nil _) (fun _ _ first rest => List.forall_mem_cons.mpr ⟨first, rest⟩)
    (fun _ _ own => own) value

mutual

/-- Whether a value can be read from its text with room for `deepest` open brackets: no object in it
has a key twice, and no whole number has too many digits. -/
def IsReadable (deepest : ℕ) : Json → Prop
  | .int n => (decimalDigits n.natAbs).length ≤ Numeral.longestInteger
  | .arr items => 0 < deepest ∧ AreReadable (deepest - 1) items
  | .obj fields => 0 < deepest ∧ (fields.map Prod.fst).Nodup ∧ HoldReadable (deepest - 1) fields
  | _ => True

/-- Whether all items of a list can be read. -/
def AreReadable (deepest : ℕ) : List Json → Prop
  | [] => True
  | item :: rest => IsReadable deepest item ∧ AreReadable deepest rest

/-- Whether the values of all fields can be read. -/
def HoldReadable (deepest : ℕ) : List (String × Json) → Prop
  | [] => True
  | (_, value) :: rest => IsReadable deepest value ∧ HoldReadable deepest rest

end

section Readable

variable {deepest : ℕ} {items : List Json} {fields : List (String × Json)} {value : Json}

theorem areReadable_iff : AreReadable deepest items ↔ ∀ item ∈ items, IsReadable deepest item := by
  induction items with
  | nil => simp [AreReadable]
  | cons item items ih => rw [AreReadable, ih, List.forall_mem_cons]

theorem holdReadable_iff :
    HoldReadable deepest fields ↔ ∀ field ∈ fields, IsReadable deepest field.2 := by
  induction fields with
  | nil => simp [HoldReadable]
  | cons field fields ih => rw [HoldReadable, ih, List.forall_mem_cons]

theorem isReadable_arr_iff :
    IsReadable deepest (.arr items) ↔
      0 < deepest ∧ ∀ item ∈ items, IsReadable (deepest - 1) item := by
  rw [IsReadable, areReadable_iff]

theorem isReadable_obj_iff :
    IsReadable deepest (.obj fields) ↔
      0 < deepest ∧ (fields.map Prod.fst).Nodup ∧
        ∀ field ∈ fields, IsReadable (deepest - 1) field.2 := by
  rw [IsReadable, holdReadable_iff]

/-- More room does no harm. -/
theorem IsReadable.mono {more : ℕ} (readable : IsReadable deepest value) (le : deepest ≤ more) :
    IsReadable more value := by
  induction value using inParts generalizing deepest more with
  | leaf value leaf =>
      cases value with
      | int n => exact readable
      | null | bool _ | real _ | str _ => trivial
      | arr _ | obj _ => cases leaf
  | arr items ih =>
      rw [isReadable_arr_iff] at readable ⊢
      exact ⟨lt_of_lt_of_le readable.1 le, fun item mem =>
        ih item mem (readable.2 item mem) (Nat.sub_le_sub_right le 1)⟩
  | obj fields ih =>
      rw [isReadable_obj_iff] at readable ⊢
      exact ⟨lt_of_lt_of_le readable.1 le, readable.2.1, fun field mem =>
        ih field mem (readable.2.2 field mem) (Nat.sub_le_sub_right le 1)⟩

theorem itemsFault?_eq_none_iff {room : Option ℕ} :
    itemsFault? room items = none ↔ ∀ item ∈ items, fault? room item = none := by
  induction items with
  | nil => simp [itemsFault?]
  | cons item items ih => rw [itemsFault?, Option.or_eq_none_iff, ih, List.forall_mem_cons]

theorem fieldsFault?_eq_none_iff {room : Option ℕ} :
    fieldsFault? room fields = none ↔ ∀ field ∈ fields, fault? room field.2 = none := by
  induction fields with
  | nil => simp [fieldsFault?]
  | cons field fields ih => rw [fieldsFault?, Option.or_eq_none_iff, ih, List.forall_mem_cons]

theorem isLong_of_isReadable {n : ℤ} (readable : IsReadable deepest (.int n)) : isLong n = false :=
  decide_eq_false (Nat.not_lt.mpr readable)

/-- What can be read from its text has one, where there is as much room. -/
theorem fault?_of_isReadable (readable : IsReadable deepest value) :
    fault? (some deepest) value = none := by
  induction value using inParts generalizing deepest with
  | leaf value leaf =>
      cases value with
      | int n =>
          rw [fault?, isLong_of_isReadable readable]
          rfl
      | null | bool _ | real _ | str _ => rfl
      | arr _ | obj _ => cases leaf
  | arr items ih =>
      rw [isReadable_arr_iff] at readable
      have room : ¬ some deepest = some 0 := by simpa using Nat.ne_of_gt readable.1
      rw [fault?, if_neg room, itemsFault?_eq_none_iff]
      exact fun item mem => ih item mem (readable.2 item mem)
  | obj fields ih =>
      rw [isReadable_obj_iff] at readable
      have room : ¬ some deepest = some 0 := by simpa using Nat.ne_of_gt readable.1
      rw [fault?, if_neg room, fieldsFault?_eq_none_iff]
      exact fun field mem => ih field mem (readable.2.2 field mem)

end Readable

section Blanks

/-- Whether a text is blanks as they are written between the pieces of a container. -/
def IsPadding (pad : List Char) : Prop := ∀ c ∈ pad, c = ' ' ∨ c = '\n'

variable {pad rest : List Char} {style : JsonStyle} {depth : ℕ}

theorem skipBlanks_append (padding : IsPadding pad) (rest : List Char) :
    skipBlanks (pad ++ rest) = skipBlanks rest := by
  induction pad with
  | nil => rfl
  | cons c pad ih =>
      have inner : IsPadding pad := fun c mem => padding c (List.mem_cons_of_mem _ mem)
      rcases padding c List.mem_cons_self with rfl | rfl
      · exact ih inner
      · exact ih inner

theorem isPadding_lineStart (style : JsonStyle) (depth : ℕ) :
    IsPadding (JsonStyle.lineStart style depth) := by
  unfold JsonStyle.lineStart
  split
  · intro c mem
    rcases List.mem_cons.mp mem with rfl | mem
    · exact .inr rfl
    · exact .inl (List.eq_of_mem_replicate mem)
  · exact List.forall_mem_nil _

/-- Between two pieces stands a comma with blanks behind it. -/
theorem exists_separator (style : JsonStyle) (depth : ℕ) :
    ∃ pad, IsPadding pad ∧ JsonStyle.separator style depth = ',' :: pad := by
  unfold JsonStyle.separator
  split
  · exact ⟨_, isPadding_lineStart style depth, rfl⟩
  · exact ⟨[' '], by simp [IsPadding], rfl⟩

/-- What stands behind a piece of a container ends a number. -/
theorem isEnd_of_isPadding (padding : IsPadding pad) {c : Char}
    (mark : c = ',' ∨ c = ']' ∨ c = '\x7d') (rest : List Char) : IsEnd (pad ++ c :: rest) := by
  cases pad with
  | nil => rcases mark with rfl | rfl | rfl <;> exact .of_head rfl (by decide) _
  | cons d pad =>
      rcases padding d List.mem_cons_self with rfl | rfl <;> exact .of_head rfl (by decide) _

end Blanks

section Heads

/-- Whether a character begins the text of a word or of a number. -/
def startsLeaf (c : Char) : Bool := c.isDigit || ['n', 't', 'f', 'N', 'I', '-'].contains c

/-- Whether a character begins the text of a value. -/
def startsValue (c : Char) : Bool := startsLeaf c || ['"', '[', '\x7b'].contains c

variable {c : Char} {deepest : ℕ}

theorem ne_of_startsLeaf {d : Char} (starts : startsLeaf c = true) (other : startsLeaf d = false) :
    c ≠ d := fun same => by
  rw [same, other] at starts
  cases starts

theorem ne_of_startsValue {d : Char} (starts : startsValue c = true)
    (other : startsValue d = false) : c ≠ d := fun same => by
  rw [same, other] at starts
  cases starts

theorem startsLeaf_of_isDigit (digit : c.isDigit = true) : startsLeaf c = true := by
  rw [startsLeaf, digit, Bool.true_or]

theorem skipBlanks_cons (starts : startsValue c = true) (rest : List Char) :
    skipBlanks (c :: rest) = c :: rest := by
  have apart {d : Char} (other : startsValue d = false) : (c == d) = false :=
    beq_eq_false_iff_ne.mpr (ne_of_startsValue starts other)
  have space : (c == ' ') = false := apart rfl
  have tab : (c == '\t') = false := apart rfl
  have newline : (c == '\n') = false := apart rfl
  have return_ : (c == '\r') = false := apart rfl
  rw [skipBlanks, space, tab, newline, return_]
  rfl

theorem readValue_leaf (starts : startsLeaf c = true) (fuel : ℕ) (rest : List Char) :
    readValue deepest (fuel + 1) (c :: rest) = readLeaf (c :: rest) := by
  rw [readValue]
  · exact fun _ same => ne_of_startsLeaf starts rfl (List.cons.inj same).1
  · exact fun _ same => ne_of_startsLeaf starts rfl (List.cons.inj same).1
  · exact fun _ same => ne_of_startsLeaf starts rfl (List.cons.inj same).1

theorem exists_head_digits (n : ℕ) :
    ∃ c tail, decimalDigits n = c :: tail ∧ startsLeaf c = true := by
  obtain ⟨c, tail, digits⟩ := List.exists_cons_of_ne_nil
    (show decimalDigits n ≠ [] from Nat.toDigits_ne_nil)
  exact ⟨c, tail, digits, startsLeaf_of_isDigit
    (Number.DecimalLayout.isRun_decimalDigits n c (by simp [digits]))⟩

theorem exists_head_intText (n : ℤ) : ∃ c tail, intText n = c :: tail ∧ startsLeaf c = true := by
  unfold intText
  split
  · exact ⟨'-', _, rfl, rfl⟩
  · exact exists_head_digits _

theorem exists_head_realText (x : Number.Binary64) :
    ∃ c tail, realText x = c :: tail ∧ startsLeaf c = true := by
  cases x with
  | nan => exact ⟨'N', _, rfl, rfl⟩
  | infinite negative =>
      cases negative
      · exact ⟨'I', _, rfl, rfl⟩
      · exact ⟨'-', _, rfl, rfl⟩
  | finite negative rank =>
      obtain ⟨p, fraction, text, _⟩ := exists_parts_realText negative rank
      obtain ⟨c, tail, digits⟩ := List.exists_cons_of_ne_nil fraction.whole_ne_nil
      have starts := startsLeaf_of_isDigit (fraction.whole c (by simp [digits]))
      rw [text, Number.Numeral.Parts.text, digits]
      cases negative
      · exact ⟨c, _, rfl, starts⟩
      · exact ⟨'-', _, rfl, rfl⟩

/-- How the text of a value begins. -/
theorem exists_head_write (style : JsonStyle) (depth : ℕ) (value : Json) :
    ∃ c tail, write style depth value = c :: tail ∧ startsValue c = true := by
  have container (opening closing : Char) (pieces : List (List Char)) :
      ∃ tail, enclose style depth opening closing pieces = opening :: tail := by
    cases pieces <;> exact ⟨_, rfl⟩
  have leaf {text : List Char} (head : ∃ c tail, text = c :: tail ∧ startsLeaf c = true) :
      ∃ c tail, text = c :: tail ∧ startsValue c = true := by
    obtain ⟨c, tail, rfl, starts⟩ := head
    exact ⟨c, tail, rfl, by rw [startsValue, starts, Bool.true_or]⟩
  cases value with
  | null => exact ⟨'n', _, rfl, rfl⟩
  | bool value =>
      cases value
      · exact ⟨'f', _, rfl, rfl⟩
      · exact ⟨'t', _, rfl, rfl⟩
  | int n =>
      rw [write]
      exact leaf (exists_head_intText n)
  | real x =>
      rw [write]
      exact leaf (exists_head_realText x)
  | str text =>
      rw [write]
      exact ⟨'"', _, rfl, rfl⟩
  | arr items =>
      rw [write]
      obtain ⟨tail, text⟩ := container '[' ']' (writeItems style (depth + 1) items)
      exact ⟨'[', tail, text, rfl⟩
  | obj fields =>
      rw [write]
      obtain ⟨tail, text⟩ := container '\x7b' '\x7d' (writeFields style (depth + 1) fields)
      exact ⟨'\x7b', tail, text, rfl⟩

/-- No blanks come first in the text of a value. -/
theorem skipBlanks_write (style : JsonStyle) (depth : ℕ) (value : Json) (rest : List Char) :
    skipBlanks (write style depth value ++ rest) = write style depth value ++ rest := by
  obtain ⟨c, tail, text, starts⟩ := exists_head_write style depth value
  rw [text, List.cons_append, skipBlanks_cons starts]

end Heads

section Steps

variable {deepest fuel : ℕ} {text after rest more : List Char} {item value : Json}
  {items : List Json} {before fields : Fields} {key : String}

/-- A word or a number is a value. -/
theorem readValue_of_readLeaf (text : List Char) {read : Except JsonError (Json × List Char)}
    (head : ∃ c tail, text = c :: tail ∧ startsLeaf c = true)
    (leaf : readLeaf (text ++ rest) = read) :
    readValue deepest (fuel + 1) (text ++ rest) = read := by
  obtain ⟨c, tail, rfl, starts⟩ := head
  rwa [List.cons_append, readValue_leaf starts]

theorem readItems_last (read : readValue deepest fuel text = .ok (item, after))
    (close : skipBlanks after = ']' :: rest) :
    readItems deepest (fuel + 1) text = .ok ([item], rest) := by
  simp only [readItems, read, close]

theorem readItems_more (read : readValue deepest fuel text = .ok (item, ',' :: more))
    (others : readItems deepest fuel (skipBlanks more) = .ok (items, rest)) :
    readItems deepest (fuel + 1) text = .ok (item :: items, rest) := by
  have comma : skipBlanks (',' :: more) = ',' :: more := rfl
  simp only [readItems, read, comma, others]

/-- A key with its value, up to what follows the value. -/
theorem readFields_last (ascii : Bool)
    (read : readValue deepest fuel text = .ok (value, after)) (visible : skipBlanks text = text)
    (close : skipBlanks after = '\x7d' :: rest) :
    readFields deepest (fuel + 1) before (stringText ascii key ++ ':' :: ' ' :: text) =
      .ok (Record.set key value before, rest) := by
  have keyRead := readString_stringText ascii key (':' :: ' ' :: text)
  have colon : skipBlanks (':' :: ' ' :: text) = ':' :: ' ' :: text := rfl
  have blank : skipBlanks (' ' :: text) = text := visible
  rw [stringText, List.cons_append, List.append_assoc, List.singleton_append]
  simp only [readFields, keyRead, colon, blank, read, close]

theorem readFields_more (ascii : Bool)
    (read : readValue deepest fuel text = .ok (value, ',' :: more))
    (visible : skipBlanks text = text)
    (others : readFields deepest fuel (Record.set key value before) (skipBlanks more) =
      .ok (fields, rest)) :
    readFields deepest (fuel + 1) before (stringText ascii key ++ ':' :: ' ' :: text) =
      .ok (fields, rest) := by
  have keyRead := readString_stringText ascii key (':' :: ' ' :: text)
  have colon : skipBlanks (':' :: ' ' :: text) = ':' :: ' ' :: text := rfl
  have blank : skipBlanks (' ' :: text) = text := visible
  have comma : skipBlanks (',' :: more) = ',' :: more := rfl
  rw [stringText, List.cons_append, List.append_assoc, List.singleton_append]
  simp only [readFields, keyRead, colon, blank, read, comma, others]

theorem readValue_arr {pad : List Char} (padding : IsPadding pad) {c : Char} {tail : List Char}
    (starts : startsValue c = true) (room : 0 < deepest)
    (read : readItems (deepest - 1) fuel (c :: tail) = .ok (items, rest)) :
    readValue deepest (fuel + 1) ('[' :: (pad ++ c :: tail)) = .ok (.arr items, rest) := by
  have first : skipBlanks (pad ++ c :: tail) = c :: tail := by
    rw [skipBlanks_append padding, skipBlanks_cons starts]
  simp only [readValue, if_neg (Nat.ne_of_gt room), first]
  split
  next same => exact absurd (List.cons.inj same).1 (ne_of_startsValue starts rfl)
  next => rw [read]

theorem readValue_obj {pad : List Char} (padding : IsPadding pad) {c : Char} {tail : List Char}
    (starts : startsValue c = true) (room : 0 < deepest)
    (read : readFields (deepest - 1) fuel [] (c :: tail) = .ok (fields, rest)) :
    readValue deepest (fuel + 1) ('\x7b' :: (pad ++ c :: tail)) = .ok (.obj fields, rest) := by
  have first : skipBlanks (pad ++ c :: tail) = c :: tail := by
    rw [skipBlanks_append padding, skipBlanks_cons starts]
  simp only [readValue, if_neg (Nat.ne_of_gt room), first]
  split
  next same => exact absurd (List.cons.inj same).1 (ne_of_startsValue starts rfl)
  next => rw [read]

end Steps

section Values

variable {deepest : ℕ} {style : JsonStyle}

theorem exists_head_items (style : JsonStyle) (depth : ℕ) (item : Json) (items : List Json)
    (rest : List Char) :
    ∃ c tail, List.intercalate (JsonStyle.separator style depth)
        (writeItems style depth (item :: items)) ++ rest = c :: tail ∧ startsValue c = true := by
  obtain ⟨c, tail, text, starts⟩ := exists_head_write style depth item
  cases items with
  | nil =>
      exact ⟨c, _, by rw [writeItems, writeItems, List.intercalate_singleton, text]; rfl, starts⟩
  | cons next items =>
      exact ⟨c, _, by rw [writeItems, writeItems, List.intercalate_cons_cons, text]; rfl, starts⟩

theorem exists_head_fields (style : JsonStyle) (depth : ℕ) (field : String × Json)
    (fields : List (String × Json)) (rest : List Char) :
    ∃ tail, List.intercalate (JsonStyle.separator style depth)
      (writeFields style depth (field :: fields)) ++ rest = '"' :: tail := by
  cases fields with
  | nil => exact ⟨_, by rw [writeFields, writeFields, List.intercalate_singleton]; rfl⟩
  | cons next fields =>
      exact ⟨_, by rw [writeFields, writeFields, List.intercalate_cons_cons]; rfl⟩

mutual

/-- A value reads back from its text, up to where a number would end. -/
theorem readValue_write {deepest : ℕ} (value : Json) (readable : IsReadable deepest value)
    (depth fuel : ℕ) (rest : List Char) (ends : IsEnd rest)
    (enough : (write style depth value).length ≤ fuel) :
    readValue deepest fuel (write style depth value ++ rest) = .ok (value, rest) := by
  obtain ⟨fuel, rfl⟩ : ∃ more, fuel = more + 1 := by
    obtain ⟨c, tail, text, _⟩ := exists_head_write style depth value
    rw [text, List.length_cons] at enough
    exact ⟨fuel - 1, by omega⟩
  match value with
  | .null => exact readValue_of_readLeaf "null".toList ⟨'n', _, rfl, rfl⟩ rfl
  | .bool false => exact readValue_of_readLeaf "false".toList ⟨'f', _, rfl, rfl⟩ rfl
  | .bool true => exact readValue_of_readLeaf "true".toList ⟨'t', _, rfl, rfl⟩ rfl
  | .int n =>
      have leaf := readLeaf_intText n ends
      rw [isLong_of_isReadable readable] at leaf
      exact readValue_of_readLeaf _ (exists_head_intText n) leaf
  | .real x => exact readValue_of_readLeaf _ (exists_head_realText x) (readLeaf_realText x ends)
  | .str text =>
      have read := readString_stringText style.ascii text rest
      rw [write, stringText, List.cons_append, List.append_assoc, List.singleton_append]
      simp only [readValue, read]
  | .arr [] => exact if_neg (Nat.ne_of_gt readable.1)
  | .arr (item :: items) =>
      simp only [write, writeItems, enclose, List.length_cons, List.length_append] at enough
      have read := readItems_write (item :: items) readable.2 (List.cons_ne_nil _ _) (depth + 1)
        fuel (isPadding_lineStart style depth) rest (by
          simp only [writeItems]
          omega)
      obtain ⟨c, tail, text, starts⟩ := exists_head_items style (depth + 1) item items
        (JsonStyle.lineStart style depth ++ ']' :: rest)
      rw [text] at read
      have whole := readValue_arr (isPadding_lineStart style (depth + 1)) starts readable.1 read
      rw [← text] at whole
      simpa only [write, writeItems, enclose, List.cons_append, List.append_assoc,
        List.nil_append] using whole
  | .obj [] => exact if_neg (Nat.ne_of_gt readable.1)
  | .obj ((key, value) :: fields) =>
      simp only [write, writeFields, enclose, List.length_cons, List.length_append] at enough
      have read := readFields_write ((key, value) :: fields) readable.2.2 (List.cons_ne_nil _ _)
        (depth + 1) fuel [] readable.2.1 (isPadding_lineStart style depth) rest (by
          simp only [writeFields]
          omega)
      obtain ⟨tail, text⟩ := exists_head_fields style (depth + 1) (key, value) fields
        (JsonStyle.lineStart style depth ++ '\x7d' :: rest)
      rw [text] at read
      have whole := readValue_obj (isPadding_lineStart style (depth + 1)) rfl readable.1 read
      rw [← text] at whole
      simpa only [write, writeFields, enclose, List.cons_append, List.append_assoc,
        List.nil_append] using whole

/-- The items of a list read back, with blanks and the closing bracket behind them. -/
theorem readItems_write {deepest : ℕ} (items : List Json) (readable : AreReadable deepest items)
    (some : items ≠ []) (depth fuel : ℕ) {pad : List Char} (padding : IsPadding pad)
    (rest : List Char)
    (enough : (List.intercalate (JsonStyle.separator style depth)
      (writeItems style depth items)).length < fuel) :
    readItems deepest fuel (List.intercalate (JsonStyle.separator style depth)
      (writeItems style depth items) ++ (pad ++ ']' :: rest)) = .ok (items, rest) := by
  obtain ⟨fuel, rfl⟩ : ∃ more, fuel = more + 1 := ⟨fuel - 1, by omega⟩
  match items with
  | [] => exact absurd rfl some
  | [item] =>
      simp only [writeItems, List.intercalate_singleton] at enough ⊢
      refine readItems_last (readValue_write item readable.1 depth fuel _
        (isEnd_of_isPadding padding (by decide) rest) (by omega)) ?_
      rw [skipBlanks_append padding]
      rfl
  | item :: next :: items =>
      obtain ⟨gap, blank, separator⟩ := exists_separator style depth
      simp only [writeItems, List.intercalate_cons_cons, separator, List.length_append,
        List.length_cons, List.append_assoc, List.cons_append] at enough ⊢
      refine readItems_more (readValue_write item readable.1 depth fuel _
        (.of_head rfl (by decide) _) (by omega)) ?_
      have others := readItems_write (next :: items) readable.2 (List.cons_ne_nil _ _) depth fuel
        padding rest (by
          simp only [writeItems, separator]
          omega)
      obtain ⟨c, tail, text, starts⟩ :=
        exists_head_items style depth next items (pad ++ ']' :: rest)
      simp only [writeItems, separator] at text others
      rw [skipBlanks_append blank, text, skipBlanks_cons starts, ← text]
      exact others

/-- The fields of an object read back, behind those that were read before. -/
theorem readFields_write {deepest : ℕ} (fields : List (String × Json))
    (readable : HoldReadable deepest fields) (some : fields ≠ []) (depth fuel : ℕ) (before : Fields)
    (nodup : ((before ++ fields).map Prod.fst).Nodup) {pad : List Char} (padding : IsPadding pad)
    (rest : List Char)
    (enough : (List.intercalate (JsonStyle.separator style depth)
      (writeFields style depth fields)).length < fuel) :
    readFields deepest fuel before (List.intercalate (JsonStyle.separator style depth)
      (writeFields style depth fields) ++ (pad ++ '\x7d' :: rest)) =
        .ok (before ++ fields, rest) := by
  obtain ⟨fuel, rfl⟩ : ∃ more, fuel = more + 1 := ⟨fuel - 1, by omega⟩
  have new (key : String) (value : Json) (others : List (String × Json))
      (same : fields = (key, value) :: others) :
      Record.set key value before = before ++ [(key, value)] := by
    refine Record.set_of_notMem (fun mem => ?_) value
    rw [same, List.map_append, List.map_cons, List.nodup_append] at nodup
    exact nodup.2.2 key mem key List.mem_cons_self rfl
  match fields with
  | [] => exact absurd rfl some
  | [(key, value)] =>
      simp only [writeFields, List.intercalate_singleton, List.length_append,
        List.length_cons] at enough
      simp only [writeFields, List.intercalate_singleton, List.append_assoc, List.cons_append]
      rw [← new key value [] rfl]
      refine readFields_last style.ascii (readValue_write value readable.1 depth fuel _
        (isEnd_of_isPadding padding (by decide) rest) (by omega)) (skipBlanks_write _ _ _ _) ?_
      rw [skipBlanks_append padding]
      rfl
  | (key, value) :: next :: fields =>
      obtain ⟨gap, blank, separator⟩ := exists_separator style depth
      simp only [writeFields, List.intercalate_cons_cons, separator, List.length_append,
        List.length_cons] at enough
      simp only [writeFields, List.intercalate_cons_cons, separator, List.append_assoc,
        List.cons_append]
      refine readFields_more style.ascii (readValue_write value readable.1 depth fuel _
        (.of_head rfl (by decide) _) (by omega)) (skipBlanks_write _ _ _ _) ?_
      have others := readFields_write (next :: fields) readable.2 (List.cons_ne_nil _ _) depth fuel
        (before ++ [(key, value)]) (by rwa [List.append_assoc, List.singleton_append]) padding rest
        (by
          simp only [writeFields, separator]
          omega)
      obtain ⟨tail, text⟩ := exists_head_fields style depth next fields (pad ++ '\x7d' :: rest)
      rw [separator] at text others
      rw [text, List.append_assoc, List.singleton_append] at others
      rw [writeFields] at text
      rw [new key value (next :: fields) rfl, skipBlanks_append blank, text, skipBlanks_cons rfl]
      exact others

end

/-- A value reads back from its text, in whatever style it is written. -/
theorem read_print (style : JsonStyle) {value : Json} (readable : IsReadable deepest value) :
    read deepest (print style value).toList = .ok value := by
  have visible := skipBlanks_write style 0 value []
  have read : readValue deepest _ (write style 0 value ++ []) = .ok (value, []) :=
    readValue_write value readable 0 (2 * (write style 0 value).length + 1) [] (by simp [IsEnd])
      (by omega)
  rw [List.append_nil] at visible read
  rw [print, String.toList_ofList, Json.read, visible, read]
  rfl

/-- A number that is too long is refused for its length. -/
theorem read_intText_of_isLong {n : ℤ} (long : isLong n = true) :
    read deepest (intText n) = .error (.longInteger (decimalDigits n.natAbs).length) := by
  have visible := skipBlanks_write ⟨none, false⟩ 0 (.int n) []
  have ends : IsEnd [] := by simp [IsEnd]
  have leaf := readLeaf_intText n ends
  rw [long, if_pos rfl] at leaf
  have read : readValue deepest (2 * (intText n).length + 1) (intText n ++ []) = _ :=
    readValue_of_readLeaf _ (exists_head_intText n) leaf
  rw [write, List.append_nil] at visible
  rw [List.append_nil] at read
  rw [Json.read, visible, read]

/-- Values that can be read are written alike only if they are the same. -/
theorem print_inj (style : JsonStyle) {first second : Json} (readable : IsReadable deepest first)
    (readable' : IsReadable deepest second) :
    print style first = print style second ↔ first = second := by
  refine ⟨fun same => ?_, congrArg _⟩
  have read := read_print style readable
  rw [same, read_print style readable'] at read
  exact (Except.ok.inj read).symm

end Values

end Json

end FilmQuery
