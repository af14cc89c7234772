/-
# The text of a patch

The text of a patch is its filters, with sorted keys, as a value in JSON.  For a patch whose fields
have values of their own form (`Patch.IsDeclared`) and no number that is too long (`Patch.IsShort`)
it is a faithful encoding (`Patch.text_faithful`): it reads back as the filters but for the order of
their keys, and two patches have the same text only if their filters are equal.  Reading back is a
matter of values in general (`Json.read_print`); what is left to the patch is that equal settings of
one field are the same setting (`Setting.same_toJson_iff`).

A patch with a longer number has no text (`Patch.text_eq_error`), and a truth value in a list equals
a number without being written like it (`Patch.text_unfaithful`).
-/
import FilmQuery.Proofs.Json.Characters
import FilmQuery.Proofs.Json.KeyOrder
import FilmQuery.Proofs.Patch.Merging

namespace FilmQuery

open Number (Binary64 decimalDigits Numeral.longestInteger)

/-- Whether a double is finite and not the negative zero. -/
def Number.Binary64.IsOrdinary (x : Binary64) : Prop :=
  ∃ negative rank, x = .finite negative rank ∧ (negative = true → 0 < rank.val)

/-- Such doubles are equal only if they are the same. -/
theorem Number.Binary64.same_iff {x y : Binary64} (ordinary : x.IsOrdinary)
    (ordinary' : y.IsOrdinary) : x.same y = true ↔ x = y := by
  obtain ⟨negative, rank, rfl, signed⟩ := ordinary
  obtain ⟨negative', rank', rfl, signed'⟩ := ordinary'
  simp only [same, place?, beq_iff_eq, finite.injEq, Fin.ext_iff]
  cases negative <;> cases negative' <;> simp at signed signed' ⊢ <;> omega

/-- Whether the sides of a range of ratings are finite and not the negative zero. -/
def RatingRange.IsOrdinary (range : RatingRange) : Prop :=
  (∀ x ∈ range.low, x.IsOrdinary) ∧ ∀ x ∈ range.high, x.IsOrdinary

namespace Json

/-- Whether two sides of a range are both open, or equal. -/
def sameSides : Option Json → Option Json → Prop
  | none, none => True
  | some x, some y => x.same y = true
  | _, _ => False

/-- Ranges are equal side by side. -/
theorem same_sideFields {j k : String} (apart : j ≠ k) (first second first' second' : Option Json) :
    (obj (sideFields [(j, first), (k, second)])).same
        (obj (sideFields [(j, first'), (k, second')])) = true ↔
      sameSides first first' ∧ sameSides second second' := by
  have other : (j == k) = false := beq_eq_false_iff_ne.mpr apart
  have other' : (k == j) = false := beq_eq_false_iff_ne.mpr apart.symm
  cases first <;> cases second <;> cases first' <;> cases second' <;>
    simp [sideFields, same, sameFields, sameSides, List.lookup_cons, other, other']

theorem sameSides_map_iff {α : Type} {f : α → Json} {first second : Option α}
    (inj : ∀ x ∈ first, ∀ y ∈ second, (f x).same (f y) = true ↔ x = y) :
    sameSides (first.map f) (second.map f) ↔ first = second := by
  cases first <;> cases second <;> simp_all [sameSides]

theorem isReadable_sideFields {j k : String} (apart : j ≠ k) {α : Type} {f : α → Json}
    (readable : ∀ x, IsReadable 0 (f x)) (first second : Option α) :
    IsReadable 1 (.obj (sideFields [(j, first.map f), (k, second.map f)])) := by
  cases first <;> cases second <;>
    simp [sideFields, IsReadable, HoldReadable, readable, apart]

theorem same_str (s t : String) : (str s).same (str t) = true ↔ s = t := by
  simp [same, sameLeaf]

theorem same_int (m n : ℤ) : (int m).same (int n) = true ↔ m = n := by
  simp [same, sameLeaf, wholeNumber?]

theorem same_real (x y : Binary64) : (real x).same (real y) = x.same y := by
  simp [same, sameLeaf]

theorem same_ints {ids ids' : List ℤ} :
    (arr (ids.map .int)).same (arr (ids'.map .int)) = true ↔ ids = ids' := by
  rw [same, sameItems_iff, List.forall₂_map_left_iff, List.forall₂_map_right_iff]
  simp only [same_int, List.forall₂_eq_eq_eq]

end Json

namespace Setting

variable {field : Field} {setting setting' : Setting}

/-- Whether the ratings of a setting are finite and not the negative zero. -/
def IsOrdinary (setting : Setting) : Prop :=
  ∀ range, setting = .value (.ratings range) → range.IsOrdinary

/-- Equal settings of one field are the same setting. -/
theorem same_toJson_iff (takes : field.Takes setting) (takes' : field.Takes setting')
    (ordinary : setting.IsOrdinary) (ordinary' : setting'.IsOrdinary) :
    setting.toJson.same setting'.toJson = true ↔ setting = setting' := by
  cases field with
  | contentType | watchRegion =>
      obtain ⟨word, rfl⟩ := takes
      obtain ⟨word', rfl⟩ := takes'
      rw [toJson, toJson, Value.toJson, Value.toJson, Json.same_str]
      simp
  | primaryReleaseDate | firstAirDate =>
      obtain ⟨⟨start, stop⟩, rfl⟩ := takes
      obtain ⟨⟨start', stop'⟩, rfl⟩ := takes'
      rw [toJson, toJson, Value.toJson, Value.toJson, YearRange.toJson, YearRange.toJson,
        Json.same_sideFields (by decide)]
      rw [Json.sameSides_map_iff fun s _ t _ => Json.same_str s t,
        Json.sameSides_map_iff fun s _ t _ => Json.same_str s t]
      simp
  | voteAverage =>
      obtain ⟨⟨low, high⟩, rfl⟩ := takes
      obtain ⟨⟨low', high'⟩, rfl⟩ := takes'
      have sides := ordinary _ rfl
      have sides' := ordinary' _ rfl
      rw [toJson, toJson, Value.toJson, Value.toJson, RatingRange.toJson, RatingRange.toJson,
        Json.same_sideFields (by decide)]
      rw [Json.sameSides_map_iff fun x inLow y inLow' => by
          rw [Json.same_real, Binary64.same_iff (sides.1 x inLow) (sides'.1 y inLow')],
        Json.sameSides_map_iff fun x inHigh y inHigh' => by
          rw [Json.same_real, Binary64.same_iff (sides.2 x inHigh) (sides'.2 y inHigh')]]
      simp
  | watchProviders | genres | withoutGenres =>
      obtain ⟨ids, rfl⟩ := takes
      obtain ⟨ids', rfl⟩ := takes'
      have numbers (ids : List ℤ) : (ids.map Value.number).map Value.toJson = ids.map .int :=
        List.map_map
      rw [toJson, toJson, numbers, numbers, Json.same_ints, list.injEq,
        (List.map_injective_iff.mpr fun m n same => by cases same; rfl).eq_iff]

/-- A setting of a field can be read from its text, if none of its numbers is too long. -/
theorem isReadable_toJson (takes : field.Takes setting)
    (short : ∀ ids : List ℤ, setting = .list (ids.map .number) →
      ∀ n ∈ ids, Json.isLong n = false) :
    Json.IsReadable 1 setting.toJson := by
  cases field with
  | contentType | watchRegion =>
      obtain ⟨word, rfl⟩ := takes
      trivial
  | primaryReleaseDate | firstAirDate =>
      obtain ⟨range, rfl⟩ := takes
      exact Json.isReadable_sideFields (f := Json.str) (by decide) (fun _ => trivial) _ _
  | voteAverage =>
      obtain ⟨range, rfl⟩ := takes
      exact Json.isReadable_sideFields (f := Json.real) (by decide) (fun _ => trivial) _ _
  | watchProviders | genres | withoutGenres =>
      obtain ⟨ids, rfl⟩ := takes
      rw [toJson, Json.isReadable_arr_iff, List.forall_mem_map, List.forall_mem_map]
      exact ⟨Nat.one_pos, fun n mem => Nat.not_lt.mp (of_decide_eq_false (short ids rfl n mem))⟩

end Setting

namespace Patch

/-- Whether the fields of a patch have values of their own form, with ratings that are finite and
not the negative zero. -/
structure IsDeclared (patch : Patch) : Prop where
  typed : patch.IsTyped
  ordinary : ∀ range, patch.voteAverage = .ratings range → range.IsOrdinary

/-- Whether no number in the lists of a patch has too many digits. -/
def IsShort (patch : Patch) : Prop :=
  ∀ n : ℤ, .number n ∈ patch.genres ++ patch.watchProviders ++ patch.withoutGenres →
    Json.isLong n = false

variable {p q : Patch} {field : Field} {setting : Setting}

theorem IsDeclared.setting_isOrdinary (declared : p.IsDeclared)
    (set : p.setting? field = some setting) : setting.IsOrdinary := by
  rintro range rfl
  have takes := declared.typed field _ set
  cases field with
  | voteAverage =>
      refine declared.ordinary range ?_
      simp only [setting?, Setting.ofValue?] at set
      split at set
      · cases set
      · exact Setting.value.inj (Option.some.inj set)
  | contentType | primaryReleaseDate | firstAirDate | watchProviders | genres | withoutGenres
  | watchRegion =>
      obtain ⟨_, same⟩ := takes
      cases same

/-- What a patch sets is an object in JSON, with the keys of its fields. -/
theorem mem_toFields_sets {entry : String × Json} :
    entry ∈ p.sets.toFields ↔
      ∃ field setting, p.setting? field = some setting ∧ entry = (field.key, setting.toJson) := by
  simp only [Filters.toFields, sets, List.mem_map, List.mem_filterMap, Option.map_eq_some_iff]
  constructor
  · rintro ⟨_, ⟨field, _, setting, set, rfl⟩, rfl⟩
    exact ⟨field, setting, set, rfl⟩
  · rintro ⟨field, setting, set, rfl⟩
    exact ⟨_, ⟨field, Field.mem_all field, setting, set, rfl⟩, rfl⟩

theorem nodup_keys_toFields (p : Patch) : (p.sets.toFields.map Prod.fst).Nodup := by
  have keys : p.sets.toFields.map Prod.fst = p.sets.map Prod.fst := by
    rw [Filters.toFields, List.map_map]
    rfl
  exact keys ▸ p.nodup_keys_sets

/-- Patches set the same if the one sets all that the other sets, and no more. -/
theorem sets_eq_of_sublist (kept : ∀ field setting, p.setting? field = some setting →
    q.setting? field = some setting) (length : p.sets.length = q.sets.length) :
    p.sets = q.sets := by
  refine List.Sublist.eq_of_length ?_ length
  rw [sets, sets]
  induction Field.all with
  | nil => exact List.Sublist.refl []
  | cons field fields ih =>
      rw [List.filterMap_cons, List.filterMap_cons]
      cases own : p.setting? field with
      | none =>
          cases q.setting? field with
          | none => exact ih
          | some setting => exact ih.cons _
      | some setting =>
          rw [kept field setting own]
          exact ih.cons_cons _

/-- The filters of patches are equal only if the patches set the same. -/
theorem same_sets_iff (declared : p.IsDeclared) (declared' : q.IsDeclared) :
    (Json.obj p.sets.toFields).same (.obj q.sets.toFields) = true ↔ p.sets = q.sets := by
  rw [Json.same, Bool.and_eq_true, beq_iff_eq, Json.sameFields_iff]
  constructor
  · rintro ⟨length, fields⟩
    rw [Filters.toFields, Filters.toFields, List.length_map, List.length_map] at length
    refine sets_eq_of_sublist (fun field setting set => ?_) length
    obtain ⟨other, found, same⟩ :=
      fields _ (mem_toFields_sets.mpr ⟨field, setting, set, rfl⟩)
    have found : Record.get? q.sets.toFields field.key = some other := found
    rw [Filters.get?_toFields, get?_sets_key, Option.map_eq_some_iff] at found
    obtain ⟨setting', set', rfl⟩ := found
    rw [Setting.same_toJson_iff (declared.typed field _ set) (declared'.typed field _ set')
      (declared.setting_isOrdinary set) (declared'.setting_isOrdinary set')] at same
    rw [set', same]
  · rintro same
    rw [← same]
    refine ⟨rfl, fun entry mem => ⟨entry.2, ?_, ?_⟩⟩
    · exact (Record.get?_eq_some_iff p.nodup_keys_toFields).mpr mem
    · obtain ⟨field, setting, set, rfl⟩ := mem_toFields_sets.mp mem
      have takes := declared.typed field _ set
      have ordinary := declared.setting_isOrdinary set
      exact (Setting.same_toJson_iff takes takes ordinary ordinary).mpr rfl

/-- The filters of a patch can be read from their text, if no number is too long. -/
theorem isReadable_sets (declared : p.IsDeclared) (short : p.IsShort) :
    Json.IsReadable 2 (.obj p.sets.toFields) := by
  have mine {field : Field} {ids : List ℤ} (set : p.setting? field = some (.list (ids.map .number)))
      {n : ℤ} (mem : n ∈ ids) :
      .number n ∈ p.genres ++ p.watchProviders ++ p.withoutGenres := by
    have ofItems {items : List Value} (given : Setting.ofItems? items =
        some (.list (ids.map .number))) : .number n ∈ items := by
      unfold Setting.ofItems? at given
      split at given
      · cases given
      · rw [Setting.list.inj (Option.some.inj given)]
        exact List.mem_map_of_mem mem
    rw [List.mem_append, List.mem_append]
    have takes := declared.typed field _ set
    cases field with
    | watchProviders => exact .inl (.inr (ofItems set))
    | genres => exact .inl (.inl (ofItems set))
    | withoutGenres => exact .inr (ofItems set)
    | contentType | primaryReleaseDate | firstAirDate | voteAverage | watchRegion =>
        obtain ⟨_, same⟩ := takes
        cases same
  rw [Json.isReadable_obj_iff]
  refine ⟨Nat.two_pos, p.nodup_keys_toFields, fun entry mem => ?_⟩
  obtain ⟨field, setting, set, rfl⟩ := mem_toFields_sets.mp mem
  refine Setting.isReadable_toJson (declared.typed field _ set) ?_
  rintro ids rfl n inIds
  exact short n (mine set inIds)

/-- What is to be written of a patch with values of their own form: nothing, a word, or a number of
its lists. -/
theorem words_cases (typed : p.IsTyped) {value : Value} (mem : value ∈ p.words) :
    value = .nothing ∨ (∃ word, value = .text word) ∨
      ∃ n : ℤ, value = .number n ∧ .number n ∈ p.genres ++ p.watchProviders ++ p.withoutGenres := by
  have word (field : Field) {value : Value} (same : p.setting? field = Setting.ofValue? value)
      (words : field = .contentType ∨ field = .watchRegion) :
      value = .nothing ∨ ∃ word, value = .text word := by
    rcases typed.value field same with rfl | takes
    · exact .inl rfl
    · rcases words with rfl | rfl
      · exact .inr (takes.imp fun _ given => Setting.value.inj given)
      · exact .inr (takes.imp fun _ given => Setting.value.inj given)
  have number (field : Field) {items : List Value}
      (same : p.setting? field = Setting.ofItems? items) (inItems : value ∈ items) :
      ∃ n : ℤ, value = .number n := by
    obtain ⟨ids, rfl⟩ := typed.items same
    obtain ⟨n, _, rfl⟩ := List.mem_map.mp inItems
    exact ⟨n, rfl⟩
  rcases List.mem_cons.mp mem with rfl | mem
  · exact (word .contentType rfl (.inl rfl)).imp_right .inl
  · rcases List.mem_cons.mp mem with rfl | listed
    · exact (word .watchRegion rfl (.inr rfl)).imp_right .inl
    · obtain ⟨n, rfl⟩ : ∃ n : ℤ, value = .number n := by
        rcases List.mem_append.mp listed with first | others
        · rcases List.mem_append.mp first with genre | provider
          · exact number .genres rfl genre
          · exact number .watchProviders rfl provider
        · exact number .withoutGenres rfl others
      exact .inr (.inr ⟨n, rfl, listed⟩)

/-- A patch with values of their own form can be written if no number is too long. -/
theorem text_eq (typed : p.IsTyped) (short : p.IsShort) :
    p.text = .ok (Json.print style (Json.obj p.sets.toFields).sortKeys) := by
  have writable : p.words.findSome? writingFault? = none := by
    refine List.findSome?_eq_none_iff.mpr fun value mem => ?_
    rcases words_cases typed mem with rfl | ⟨word, rfl⟩ | ⟨n, rfl, listed⟩
    · rfl
    · rfl
    · rw [writingFault?_number, short n listed]
      rfl
  exact text_of_writable (filters_eq typed) writable

/-- A patch with values of their own form cannot be written if a number is too long. -/
theorem text_eq_error (typed : p.IsTyped) (long : ¬ p.IsShort) : p.text = .error .longInteger := by
  simp only [IsShort, not_forall, Bool.not_eq_false] at long
  obtain ⟨n, listed, long⟩ := long
  have inWords : .number n ∈ p.words := List.mem_cons_of_mem _ (List.mem_cons_of_mem _ listed)
  have faulty : p.words.findSome? writingFault? = some .longInteger := by
    cases found : p.words.findSome? writingFault? with
    | none =>
        have writable := List.findSome?_eq_none_iff.mp found _ inWords
        rw [writingFault?_number, if_pos long] at writable
        cases writable
    | some fault =>
        obtain ⟨value, mem, same⟩ := List.exists_of_findSome?_eq_some found
        rcases words_cases typed mem with rfl | ⟨word, rfl⟩ | ⟨m, rfl, _⟩
        · cases same
        · cases same
        · rw [writingFault?_number] at same
          split at same
          · exact same.symm
          · cases same
  exact text_of_faulty (filters_eq typed) faulty

/-- Whether a text encodes some filters: in ASCII, with the keys sorted wherever there are some, and
so that it reads back as equal filters, if only there is room for two open brackets. -/
structure IsEncodedBy (filters : Filters) (text : String) : Prop where
  ascii : ∀ c ∈ text.toList, c.toNat < 0x80
  reads : ∃ fields, text = Json.print style (.obj fields) ∧ Json.IsOrdered (.obj fields) ∧
    (Json.obj filters.toFields).same (.obj fields) = true ∧
    ∀ deepest, 2 ≤ deepest → Json.read deepest text.toList = .ok (.obj fields)

theorem IsDeclared.isEncodedBy (declared : p.IsDeclared) (short : p.IsShort) :
    IsEncodedBy p.sets (Json.print style (Json.obj p.sets.toFields).sortKeys) where
  ascii c mem := by
    rw [Json.print, String.toList_ofList] at mem
    exact lt_trans ((Json.isPlain_write style 0 _ c mem).2 rfl) (by norm_num)
  reads := by
    have readable := isReadable_sets declared short
    have sorted := Json.isReadable_sortKeys _ readable
    have self := (same_sets_iff declared declared).mpr rfl
    refine ⟨_, by rw [Json.sortKeys], ?_, ?_, fun deepest room => ?_⟩
    · rw [← Json.sortKeys]
      exact Json.isOrdered_sortKeys _ readable
    · rw [← Json.sortKeys]
      exact Json.same_of_sortKeys _ readable sorted self (Json.sortKeys_sortKeys readable).symm
    · rw [Json.read_print style (sorted.mono room), Json.sortKeys]

/-- A patch whose fields have values of their own form, without a number that is too long, has a
text, which encodes its filters faithfully, and another such patch has the same text if and only if
its filters are equal. -/
theorem text_faithful (declared : p.IsDeclared) (declared' : q.IsDeclared) (short : p.IsShort)
    (short' : q.IsShort) :
    ∃ filters filters' text text', p.filters = .ok filters ∧ q.filters = .ok filters' ∧
      p.text = .ok text ∧ q.text = .ok text' ∧ IsEncodedBy filters text ∧
      (text = text' ↔ (Json.obj filters.toFields).same (.obj filters'.toFields) = true) := by
  refine ⟨_, _, _, _, filters_eq declared.typed, filters_eq declared'.typed,
    text_eq declared.typed short, text_eq declared'.typed short', declared.isEncodedBy short,
    fun alike => ?_, fun equal => ?_⟩
  · have readable := isReadable_sets declared short
    have readable' := isReadable_sets declared' short'
    rw [Json.print_inj style (Json.isReadable_sortKeys _ readable)
      (Json.isReadable_sortKeys _ readable')] at alike
    exact Json.same_of_sortKeys _ readable readable' ((same_sets_iff declared declared).mpr rfl)
      alike
  · rw [(same_sets_iff declared declared').mp equal]

/-- Well rated shows from a year that is typed with digits beyond sixteen bits. -/
def ratedShows : Patch where
  contentType := .text "tv"
  firstAirDate := .years { start := some "𝟏𝟗𝟗𝟎" }
  voteAverage := .ratings { low := some (.ofDecimal false 75 (-1)) }
  genres := [.number 35, .number (-7)]

theorem isDeclared_ratedShows : ratedShows.IsDeclared where
  typed := by
    intro field setting set
    cases field <;> cases set
    · exact ⟨_, rfl⟩
    · exact ⟨_, rfl⟩
    · exact ⟨_, rfl⟩
    · exact ⟨[35, -7], rfl⟩
  ordinary := by
    rintro range ⟨⟩
    refine ⟨?_, by simp⟩
    rintro x ⟨⟩
    exact ⟨false, ⟨4620130267728707584, by decide⟩, by decide +kernel, by decide⟩

theorem isDeclared_empty : ({} : Patch).IsDeclared where
  typed := by
    intro field setting set
    cases field <;> cases set
  ordinary := by
    rintro range ⟨⟩

theorem isShort_ratedShows : ratedShows.IsShort := by
  simp [IsShort, ratedShows, Json.isLong]
  decide

theorem isShort_empty : ({} : Patch).IsShort := by
  simp [IsShort]

/-- The text of a patch that sets something is not that of the empty patch. -/
theorem text_faithful_ratedShows : ratedShows.IsDeclared ∧ ({} : Patch).IsDeclared ∧
    ratedShows.IsShort ∧ ({} : Patch).IsShort ∧
    ∃ text, ratedShows.text = .ok text ∧ IsEncodedBy ratedShows.sets text ∧
      ({} : Patch).text = .ok "\x7b\x7d" ∧ text ≠ "\x7b\x7d" := by
  obtain ⟨filters, filters', text, text', sets, sets', written, written', encoded, same⟩ :=
    text_faithful isDeclared_ratedShows isDeclared_empty isShort_ratedShows isShort_empty
  rw [filters_eq isDeclared_ratedShows.typed] at sets
  rw [filters_eq isDeclared_empty.typed] at sets'
  cases sets
  cases sets'
  have braces : ({} : Patch).text = .ok "\x7b\x7d" := by
    have none : ({} : Patch).sets.toFields = [] := rfl
    rw [text_eq isDeclared_empty.typed isShort_empty, none, Json.sortKeys, Json.sortFields,
      List.mergeSort_nil]
    rfl
  rw [braces] at written'
  cases written'
  refine ⟨isDeclared_ratedShows, isDeclared_empty, isShort_ratedShows, isShort_empty, text, written,
    encoded, braces, fun alike => ?_⟩
  have equal := same.mp alike
  revert equal
  decide +kernel

/-- A genre with one digit more than the longest number that is written. -/
def longGenre : Patch where
  genres := [.number ((10 ^ Numeral.longestInteger : ℕ) : ℤ)]

theorem isDeclared_longGenre : longGenre.IsDeclared where
  typed := by
    intro field setting set
    cases field <;> cases set
    exact ⟨[((10 ^ Numeral.longestInteger : ℕ) : ℤ)], rfl⟩
  ordinary := by
    rintro range ⟨⟩

/-- A genre that is a truth value. -/
def truthGenre : Patch where
  genres := [.plain (.bool true)]

/-- The genre that equals it. -/
def firstGenre : Patch where
  genres := [.number 1]

/-- A patch with values of their own form need not have a text, and patches with different texts can
have equal filters. -/
theorem text_unfaithful :
    (longGenre.IsDeclared ∧ longGenre.text = .error .longInteger) ∧
      ∃ filters filters' text text',
        truthGenre.filters = .ok filters ∧ firstGenre.filters = .ok filters' ∧
        truthGenre.text = .ok text ∧ firstGenre.text = .ok text' ∧
        (Json.obj filters.toFields).same (.obj filters'.toFields) = true ∧ text ≠ text' := by
  refine ⟨⟨isDeclared_longGenre, text_eq_error isDeclared_longGenre.typed fun short => ?_⟩, ?_⟩
  · have long : Json.isLong ((10 ^ Numeral.longestInteger : ℕ) : ℤ) = true :=
      Json.isLong_iff.mpr (le_of_eq (Int.natAbs_natCast _).symm)
    rw [short _ (List.mem_append_left _ (List.mem_append_left _ List.mem_cons_self))] at long
    cases long
  · refine ⟨_, _, _, _, rfl, rfl, rfl, rfl, ?_, ?_⟩
    · decide +kernel
    · decide +kernel

end Patch

end FilmQuery
