/-
# Filters of record

Filters that only ever took patches of record have no keys but the eight of a patch, and every
setting is one that its key allows (`Filters.IsSound`).  A patch of record can always be merged into
them: what stands under a key for a list is a list, so there is room for the new items, and the old
ones stay in front of them (`Filters.Grows`).

The step is one filter that is set (`IsSound.exists_change`), the run is a whole patch
(`IsSound.exists_merge`).  That a patch of record sets nothing else (`isEntry_of_filters`) comes
from what its fragments can say.  Its numbers are short, so they can be written
(`Patch.writingFault?_of_knows`).
-/
import FilmQuery.Proofs.Patch.Chips
import FilmQuery.Proofs.Record

namespace FilmQuery

open Catalog (Provider genreIds)

/-- The fields of a patch. -/
inductive Field where
  | contentType
  | primaryReleaseDate
  | firstAirDate
  | voteAverage
  | watchProviders
  | genres
  | withoutGenres
  | watchRegion
  deriving DecidableEq, Repr

namespace Field

/-- The key of the filter that a field sets. -/
def key : Field → String
  | .contentType => "content_type"
  | .primaryReleaseDate => "primary_release_date"
  | .firstAirDate => "first_air_date"
  | .voteAverage => "vote_average"
  | .watchProviders => "with_watch_providers"
  | .genres => "with_genres"
  | .withoutGenres => "without_genres"
  | .watchRegion => "watch_region"

theorem key_inj {field other : Field} (same : field.key = other.key) : field = other := by
  cases field <;> cases other <;> first | rfl | exact absurd same (by decide)

end Field

/-- A setting that lists known numbers: at least one, and each once. -/
def Setting.Lists (setting : Setting) (known : Int → Prop) : Prop :=
  ∃ ids : List Int, setting = .list (ids.map .number) ∧ ids ≠ [] ∧ ids.Nodup ∧ ∀ id ∈ ids, known id

/-- The numbers that a field can list. -/
def Field.Knows : Field → Int → Prop
  | .watchProviders, id => ∃ provider : Provider, id = provider.id
  | .genres, id | .withoutGenres, id => ∃ entry ∈ genreIds, id = entry.2
  | _, _ => False

/-- The settings of record of a field. -/
def Field.Allows : Field → Setting → Prop
  | .contentType, setting => ∃ medium : Medium, setting = .value (.text medium.name)
  | .primaryReleaseDate, setting | .firstAirDate, setting =>
    ∃ range : YearRange, setting = .value (.years range) ∧ range.IsSound
  | .voteAverage, setting =>
    ∃ range : RatingRange, setting = .value (.ratings range) ∧ range.IsSound
  | .watchProviders, setting => setting.Lists (Field.Knows .watchProviders)
  | .genres, setting => setting.Lists (Field.Knows .genres)
  | .withoutGenres, setting => setting.Lists (Field.Knows .withoutGenres)
  | .watchRegion, setting => ∃ code ∈ regionCodes, setting = .value (.text code)

namespace Field

variable {field : Field}

/-- The numbers that a field knows are short. -/
theorem isLong_of_knows {id : Int} (known : field.Knows id) : Json.isLong id = false := by
  cases field with
  | watchProviders =>
      obtain ⟨provider, rfl⟩ := known
      cases provider <;> rfl
  | genres | withoutGenres =>
      obtain ⟨entry, mem, rfl⟩ := known
      have all : ∀ entry ∈ genreIds, Json.isLong entry.2 = false := by decide
      exact all entry mem
  | contentType | primaryReleaseDate | firstAirDate | voteAverage | watchRegion => exact known.elim

/-- A list that a field allows holds what the field knows. -/
theorem lists_of_allows {items : List Value} (allows : field.Allows (.list items)) :
    (Setting.list items).Lists field.Knows := by
  cases field with
  | watchProviders | genres | withoutGenres => exact allows
  | contentType =>
      obtain ⟨_, same⟩ := allows
      cases same
  | primaryReleaseDate | firstAirDate | voteAverage =>
      obtain ⟨_, same, _⟩ := allows
      cases same
  | watchRegion =>
      obtain ⟨_, _, same⟩ := allows
      cases same

/-- A field that can list something allows every list of what it knows. -/
theorem allows_of_lists {setting : Setting} (lists : setting.Lists field.Knows) :
    field.Allows setting := by
  obtain ⟨ids, _, nonempty, _, known⟩ := id lists
  obtain ⟨first, mem⟩ := List.exists_mem_of_ne_nil ids nonempty
  cases field with
  | watchProviders | genres | withoutGenres => exact lists
  | contentType | primaryReleaseDate | firstAirDate | voteAverage | watchRegion =>
      exact (known first mem).elim

/-- No field allows both a value and a list. -/
theorem not_allows_list_of_value {v : Value} {items : List Value}
    (allows : field.Allows (.value v)) : ¬ field.Allows (.list items) := by
  intro lists
  obtain ⟨ids, _, nonempty, _, known⟩ := lists_of_allows lists
  obtain ⟨first, mem⟩ := List.exists_mem_of_ne_nil ids nonempty
  cases field with
  | watchProviders | genres | withoutGenres =>
      obtain ⟨_, same, _⟩ := allows
      cases same
  | contentType | primaryReleaseDate | firstAirDate | voteAverage | watchRegion =>
      exact (known first mem).elim

end Field

namespace Patch

theorem writingFault?_number (n : Int) :
    writingFault? (.number n) = if Json.isLong n then some .longInteger else none := by
  change (Json.fault? none (.int n)).map _ = _
  rw [Json.fault?]
  split <;> rfl

/-- The numbers of record can be written. -/
theorem writingFault?_of_knows {field : Field} {id : Int} (known : field.Knows id) :
    writingFault? (.number id) = none := by
  rw [writingFault?_number, Field.isLong_of_knows known]
  rfl

section Text

variable {p : Patch} {filters : Filters}

/-- A patch whose words and numbers can be written has the text of its filters. -/
theorem text_of_writable (sets : p.filters = .ok filters)
    (writable : p.words.findSome? writingFault? = none) :
    p.text = .ok (Json.print style (Json.obj filters.toFields).sortKeys) := by
  rw [text, sets]
  simp only [writable, bind, Except.bind]
  rfl

/-- The first word or number that cannot be written says why there is no text. -/
theorem text_of_faulty {fault : FilterError} (sets : p.filters = .ok filters)
    (faulty : p.words.findSome? writingFault? = some fault) : p.text = .error fault := by
  rw [text, sets]
  simp only [faulty, bind, Except.bind]
  rfl

end Text

end Patch

namespace Filters

/-- An entry is under the key of a field that allows its setting. -/
def IsEntry (entry : String × Setting) : Prop :=
  ∃ field : Field, entry.1 = field.key ∧ field.Allows entry.2

/-- Every key is there once and belongs to a field, and the field allows what is set. -/
structure IsSound (filters : Filters) : Prop where
  keys : (filters.map Prod.fst).Nodup
  entries : ∀ entry ∈ filters, IsEntry entry

/-- Lists that are there stay there, and their items stay in front of all others. -/
def Grows (earlier later : Filters) : Prop :=
  ∀ (field : Field) (old : List Value), Record.get? earlier field.key = some (.list old) →
    ∃ new, Record.get? later field.key = some (.list new) ∧ old <+: new

theorem Grows.refl (filters : Filters) : Grows filters filters := fun _ old found =>
  ⟨old, found, List.prefix_refl old⟩

theorem Grows.trans {first second third : Filters} (early : Grows first second)
    (late : Grows second third) : Grows first third := by
  intro field old found
  obtain ⟨middle, foundMiddle, before⟩ := early field old found
  obtain ⟨new, foundNew, after⟩ := late field middle foundMiddle
  exact ⟨new, foundNew, before.trans after⟩

end Filters

/-- Items are only added behind those that are there. -/
theorem addNew_prefix {α : Type} (same : α → α → Bool) (old new : List α) :
    old <+: addNew same old new := by
  induction new generalizing old with
  | nil => exact List.prefix_refl old
  | cons x new ih =>
      rw [addNew, List.foldl_cons]
      split
      · exact ih old
      · exact (List.prefix_append old [x]).trans (ih (old ++ [x]))

theorem nodup_eraseDups {α : Type} [DecidableEq α] (xs : List α) : xs.eraseDups.Nodup := by
  induction xs using List.reverseRecOn with
  | nil => exact List.nodup_nil
  | append_singleton xs x ih =>
      rw [eraseDups_concat]
      split
      · exact ih
      next new =>
        have apart : x ∉ xs.eraseDups := fun mem => new (List.mem_eraseDups.mp mem)
        rw [← List.concat_eq_append]
        exact List.Nodup.concat apart ih

theorem eraseDups_of_nodup {α : Type} [DecidableEq α] {xs : List α} (nodup : xs.Nodup) :
    xs.eraseDups = xs := by
  induction xs using List.reverseRecOn with
  | nil => rfl
  | append_singleton xs x ih =>
      obtain ⟨before, _, apart⟩ := List.nodup_append.mp nodup
      have new : x ∉ xs := fun mem => apart x mem x List.mem_cons_self rfl
      rw [eraseDups_concat, if_neg new, ih before]

theorem distinctNumbers_of_nodup {ids : List Int} (nodup : ids.Nodup) :
    distinctNumbers ids = ids.map .number := by
  rw [distinctNumbers, eraseDups_of_nodup nodup]

/-- Numbers that are known are listed. -/
theorem lists_distinctNumbers {known : Int → Prop} {ids : List Int} (nonempty : ids ≠ [])
    (all : ∀ id ∈ ids, known id) : (Setting.list (distinctNumbers ids)).Lists known := by
  refine ⟨ids.eraseDups, rfl, ?_, nodup_eraseDups ids, ?_⟩
  · cases ids with
    | nil => exact absurd rfl nonempty
    | cons id rest =>
        rw [List.eraseDups_cons]
        exact List.cons_ne_nil _ _
  · intro id mem
    exact all id (List.mem_eraseDups.mp mem)

namespace Filters

variable {filters : Filters} {field : Field}

theorem isSound_nil : IsSound [] := ⟨List.nodup_nil, by simp⟩

/-- What stands under the key of a field is what the field allows. -/
theorem IsSound.allows (sound : IsSound filters) {setting : Setting}
    (found : Record.get? filters field.key = some setting) : field.Allows setting := by
  obtain ⟨owner, key, allows⟩ := sound.entries _ (Record.mem_of_get? found)
  rwa [Field.key_inj key]

theorem IsSound.set (sound : IsSound filters) {setting : Setting} (allows : field.Allows setting) :
    IsSound (Record.set field.key setting filters) where
  keys := Record.nodup_set sound.keys
  entries entry mem := by
    rcases Record.mem_set mem with rfl | old
    · exact ⟨field, rfl, allows⟩
    · exact sound.entries entry old

/-- A list stays unless its own key is set. -/
theorem grows_set {setting : Setting}
    (own : ∀ old, Record.get? filters field.key = some (.list old) →
      ∃ new, setting = .list new ∧ old <+: new) :
    Grows filters (Record.set field.key setting filters) := by
  intro other old found
  rw [Record.get?_set]
  split
  next same =>
    rw [same] at found
    obtain ⟨new, rfl, before⟩ := own old found
    exact ⟨new, rfl, before⟩
  next => exact ⟨old, found, List.prefix_refl old⟩

theorem items?_setting_of_get? {key : String} {items : List Value}
    (found : Record.get? filters key = some (.list items)) :
    (filters.setting key).items? = some items := by
  rw [setting, found]
  rfl

/-- Where a list is to go there is a list, which may be empty. -/
theorem IsSound.exists_items (sound : IsSound filters) {items : List Value}
    (allows : field.Allows (.list items)) :
    ∃ old : List Int, (filters.setting field.key).items? = some (old.map .number) ∧ old.Nodup ∧
      ∀ id ∈ old, field.Knows id := by
  cases found : Record.get? filters field.key with
  | none => exact ⟨[], by rw [setting, found]; rfl, List.nodup_nil, by simp⟩
  | some present =>
      have presentAllowed := sound.allows found
      cases present with
      | value v => exact absurd allows (Field.not_allows_list_of_value presentAllowed)
      | list there =>
          obtain ⟨old, same, _, nodup, known⟩ := Field.lists_of_allows presentAllowed
          cases same
          exact ⟨old, items?_setting_of_get? found, nodup, known⟩

/-- The step: a setting of record can always be set, and lists only grow. -/
theorem IsSound.exists_change (sound : IsSound filters) {setting : Setting}
    (allows : field.Allows setting) :
    ∃ next, filters.change field.key setting = .ok next ∧ next.IsSound ∧ Grows filters next := by
  cases setting with
  | value v =>
      refine ⟨_, rfl, sound.set allows, grows_set ?_⟩
      intro old found
      exact absurd (sound.allows found) (Field.not_allows_list_of_value allows)
  | list items =>
      obtain ⟨old, present, nodupOld, knownOld⟩ := sound.exists_items allows
      obtain ⟨ids, same, nonempty, _, known⟩ := Field.lists_of_allows allows
      cases same
      have merged : addNew Value.same (old.map .number) (ids.map .number) =
          distinctNumbers (old ++ ids) := by
        rw [← distinctNumbers_of_nodup nodupOld, addNew_distinctNumbers]
      have lists : (Setting.list (distinctNumbers (old ++ ids))).Lists field.Knows := by
        apply lists_distinctNumbers
        · exact List.append_ne_nil_of_right_ne_nil old nonempty
        · rw [List.forall_mem_append]
          exact ⟨knownOld, known⟩
      refine ⟨_, by rw [change, present], ?_, grows_set ?_⟩
      · rw [merged]
        exact sound.set (Field.allows_of_lists lists)
      · intro before found
        rw [items?_setting_of_get? found] at present
        rw [Option.some.inj present]
        exact ⟨_, rfl, addNew_prefix _ _ _⟩

/-- The run: settings of record can be set one after another. -/
theorem IsSound.exists_merge (sound : IsSound filters) {changes : Filters}
    (entries : ∀ entry ∈ changes, IsEntry entry) :
    ∃ next, filters.merge changes = .ok next ∧ next.IsSound ∧ Grows filters next := by
  induction changes generalizing filters with
  | nil => exact ⟨filters, rfl, sound, Grows.refl filters⟩
  | cons entry rest ih =>
      obtain ⟨key, setting⟩ := entry
      obtain ⟨field, rfl, allows⟩ := entries _ List.mem_cons_self
      obtain ⟨middle, changed, soundMiddle, early⟩ := sound.exists_change allows
      obtain ⟨next, merged, soundNext, late⟩ :=
        ih soundMiddle fun entry mem => entries entry (List.mem_cons_of_mem _ mem)
      refine ⟨next, ?_, soundNext, early.trans late⟩
      rw [merge]
      rw [changed]
      exact merged

end Filters

section Digests

theorem lastWord_eq (words : List String) :
    lastWord words = .nothing ∨ ∃ word ∈ words, lastWord words = .text word := by
  cases last : words.getLast? with
  | none => exact .inl (by rw [lastWord, last]; rfl)
  | some word => exact .inr ⟨word, List.mem_of_getLast? last, by rw [lastWord, last]; rfl⟩

variable {α ρ : Type} {side : ρ → Option α} {ranges : List ρ}

/-- What holds of this side of all ranges holds of the last one. -/
theorem forall_mem_lastSide {P : α → Prop} (each : ∀ range ∈ ranges, ∀ x ∈ side range, P x) :
    ∀ x ∈ lastSide side ranges, P x := by
  intro x last
  obtain ⟨range, mem, has⟩ := List.mem_filterMap.mp (List.mem_of_getLast? last)
  exact each range mem x has

theorem lastSide_ne_none {range : ρ} (mem : range ∈ ranges) (has : side range ≠ none) :
    lastSide side ranges ≠ none := by
  obtain ⟨x, there⟩ := Option.ne_none_iff_exists'.mp has
  have kept : x ∈ ranges.filterMap side := List.mem_filterMap.mpr ⟨range, mem, there⟩
  rw [lastSide, ne_eq, List.getLast?_eq_none_iff]
  exact List.ne_nil_of_mem kept

/-- Sound years come to nothing or to sound dates. -/
theorem YearRange.together_sound {ranges : List YearRange}
    (sound : ∀ range ∈ ranges, range.IsSound) :
    YearRange.together ranges = .nothing ∨
      ∃ range : YearRange, YearRange.together ranges = .years range ∧ range.IsSound := by
  by_cases empty : ranges = []
  · exact .inl (years_together_eq_nothing_iff.mpr empty)
  · obtain ⟨range, mem⟩ := List.exists_mem_of_ne_nil ranges empty
    have bounded := (sound range mem).bounded.imp (lastSide_ne_none mem) (lastSide_ne_none mem)
    exact .inr ⟨_, if_neg empty, bounded,
      forall_mem_lastSide fun range mem => (sound range mem).start,
      forall_mem_lastSide fun range mem => (sound range mem).stop⟩

/-- Sound ratings come to nothing or to a sound rating. -/
theorem RatingRange.together_sound {ranges : List RatingRange}
    (sound : ∀ range ∈ ranges, range.IsSound) :
    RatingRange.together ranges = .nothing ∨
      ∃ range : RatingRange, RatingRange.together ranges = .ratings range ∧ range.IsSound := by
  by_cases empty : ranges = []
  · exact .inl (ratings_together_eq_nothing_iff.mpr empty)
  · obtain ⟨range, mem⟩ := List.exists_mem_of_ne_nil ranges empty
    have bounded := (sound range mem).bounded.imp (lastSide_ne_none mem) (lastSide_ne_none mem)
    exact .inr ⟨_, if_neg empty, bounded,
      forall_mem_lastSide fun range mem => (sound range mem).low,
      forall_mem_lastSide fun range mem => (sound range mem).high⟩

end Digests

namespace OfRecord

open Filters (IsEntry)

variable {chips : List Fragment}

/-- A value that a field allows, or none, sets what is of record. -/
theorem isEntry_single (field : Field) {value : Value}
    (allowed : value = .nothing ∨ field.Allows (.value value)) :
    ∀ entry ∈ Patch.single field.key value, IsEntry entry := by
  intro entry mem
  rcases allowed with rfl | allows
  · cases mem
  · have only : Patch.single field.key value = [(field.key, .value value)] := by
      cases field with
      | contentType =>
          obtain ⟨_, same⟩ := allows
          cases same
          rfl
      | primaryReleaseDate | firstAirDate | voteAverage =>
          obtain ⟨_, same, _⟩ := allows
          cases same
          rfl
      | watchProviders | genres | withoutGenres =>
          obtain ⟨_, same, _⟩ := allows
          cases same
      | watchRegion =>
          obtain ⟨_, _, same⟩ := allows
          cases same
          rfl
    rw [only, List.mem_singleton] at mem
    exact ⟨field, by rw [mem], by rwa [mem]⟩

/-- Numbers that a field knows, or none, set what is of record. -/
theorem isEntry_several (field : Field) {ids : List Int} (known : ∀ id ∈ ids, field.Knows id) :
    ∀ entry ∈ Patch.several field.key (distinctNumbers ids), IsEntry entry := by
  intro entry mem
  by_cases empty : ids = []
  · rw [several_eq_nil_iff.mpr (distinctNumbers_eq_nil_iff.mpr empty)] at mem
    cases mem
  · have kept : ¬ (distinctNumbers ids).isEmpty = true := by
      rwa [List.isEmpty_iff, distinctNumbers_eq_nil_iff]
    rw [Patch.several, if_neg kept, List.mem_singleton] at mem
    rw [mem]
    exact ⟨field, rfl, Field.allows_of_lists (lists_distinctNumbers empty known)⟩

theorem isSound_of_said_years (record : OfRecord chips) :
    ∀ range ∈ said Kind.isYear Value.years? chips, range.IsSound := by
  intro range heard
  obtain ⟨f, mem, year, read⟩ := exists_of_mem_said heard
  have allows := record.allows f mem
  have value := Value.years?_eq_some.mp read
  cases kind : f.kind <;> rw [kind] at allows year <;> cases year
  all_goals
    obtain ⟨sound, same, isSound⟩ := allows
    rw [value] at same
    cases same
    exact isSound

theorem isSound_of_said_ratings (record : OfRecord chips) :
    ∀ range ∈ said Kind.isRating Value.ratings? chips, range.IsSound := by
  intro range heard
  obtain ⟨f, mem, rating, read⟩ := exists_of_mem_said heard
  have allows := record.allows f mem
  have value := Value.ratings?_eq_some.mp read
  cases kind : f.kind <;> rw [kind] at allows rating <;> cases rating
  all_goals
    obtain ⟨sound, same, isSound⟩ := allows
    rw [value] at same
    cases same
    exact isSound

/-- The dates of either medium are none or sound. -/
theorem dates_sound (record : OfRecord chips) (search other : Medium) :
    (Patch.digest search chips).dates other = .nothing ∨
      ∃ range : YearRange,
        (Patch.digest search chips).dates other = .years range ∧ range.IsSound := by
  obtain ⟨medium, searched, _⟩ := record.exists_searched search
  rw [record.dates_digest_eq searched other]
  split
  · exact YearRange.together_sound record.isSound_of_said_years
  · exact .inl rfl

theorem knows_of_said_provider (record : OfRecord chips) :
    ∀ id ∈ (said (· = .provider) Value.numbers? chips).flatten, Field.Knows .watchProviders id := by
  intro id mem
  obtain ⟨ids, heard, inIds⟩ := List.mem_flatten.mp mem
  obtain ⟨_, ⟨provider, rfl⟩, read⟩ := record.allows_of_mem_said heard
  cases read
  exact ⟨provider, List.mem_singleton.mp inIds⟩

theorem mem_genreIds_of_said (record : OfRecord chips) {kind : Kind}
    (kinds : kind = .genre ∨ kind = .genreExclude) :
    ∀ id ∈ said (· = kind) Value.number? chips, ∃ entry ∈ genreIds, id = entry.2 := by
  intro id heard
  obtain ⟨value, allows, read⟩ := record.allows_of_mem_said heard
  rcases kinds with rfl | rfl
  all_goals
    obtain ⟨entry, mem, rfl⟩ := allows
    cases read
    exact ⟨entry, mem, rfl⟩

theorem mem_regionCodes_of_said (record : OfRecord chips) :
    ∀ code ∈ said (· = .country) Value.text? chips, code ∈ regionCodes := by
  intro code heard
  obtain ⟨_, ⟨known, mem, rfl⟩, read⟩ := record.allows_of_mem_said heard
  cases read
  exact mem

theorem isEntry_dates (record : OfRecord chips) (search medium : Medium) {field : Field}
    (fields : field = .primaryReleaseDate ∨ field = .firstAirDate) :
    ∀ entry ∈ Patch.single field.key ((Patch.digest search chips).dates medium),
      IsEntry entry := by
  apply isEntry_single field
  refine (record.dates_sound search medium).imp id ?_
  rintro ⟨range, same, sound⟩
  rw [same]
  rcases fields with rfl | rfl <;> exact ⟨range, rfl, sound⟩

/-- Fragments of record set what is of record. -/
theorem isEntry_of_filters (record : OfRecord chips) (search : Medium) {filters : Filters}
    (sets : (Patch.digest search chips).filters = .ok filters) :
    ∀ entry ∈ filters, IsEntry entry := by
  have all : (Patch.digest search chips).filters = .ok _ := if_pos (isRange_digest search chips)
  rw [all] at sets
  cases sets
  have content : ∀ entry ∈ Patch.single "content_type" (Patch.digest search chips).contentType,
      IsEntry entry := by
    apply isEntry_single .contentType
    obtain ⟨medium, _, nothing | named⟩ := record.exists_searched search
    · exact .inl nothing.1
    · exact .inr ⟨medium, by rw [named]⟩
  have votes : ∀ entry ∈ Patch.single "vote_average" (Patch.digest search chips).voteAverage,
      IsEntry entry := by
    apply isEntry_single .voteAverage
    refine (RatingRange.together_sound record.isSound_of_said_ratings).imp id ?_
    rintro ⟨range, same, sound⟩
    exact ⟨range, congrArg Setting.value same, sound⟩
  have region : ∀ entry ∈ Patch.single "watch_region" (Patch.digest search chips).watchRegion,
      IsEntry entry := by
    apply isEntry_single .watchRegion
    refine (lastWord_eq (said (· = .country) Value.text? chips)).imp id ?_
    rintro ⟨code, heard, last⟩
    exact ⟨code, record.mem_regionCodes_of_said code heard, congrArg Setting.value last⟩
  simp only [List.forall_mem_append]
  exact ⟨⟨⟨⟨⟨⟨⟨content, record.isEntry_dates search .movie (.inl rfl)⟩,
    record.isEntry_dates search .tv (.inr rfl)⟩, votes⟩,
    isEntry_several .watchProviders record.knows_of_said_provider⟩,
    isEntry_several .genres (record.mem_genreIds_of_said (.inl rfl))⟩,
    isEntry_several .withoutGenres (record.mem_genreIds_of_said (.inr rfl))⟩, region⟩

end OfRecord

end FilmQuery
