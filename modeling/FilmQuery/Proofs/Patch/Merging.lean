/-
# Merging a patch key by key

What a patch makes of filters can be told for every key by itself, from what stands under the key
and from what the patch sets there (`Setting.mergedInto`): a value replaces what is there, and the
items of a list are added to it.  A patch can be merged if and only if this goes well for every key
(`Patch.tells_mergeInto`).

For patches whose fields have values of their own form (`Patch.IsTyped`) and filters that came as
JSON this says what is in a list afterwards: the old elements, unchanged and in order, and behind
them the new numbers that equal none of these, each once (`Patch.mergeInto_json`).
-/
import FilmQuery.Proofs.Patch.Settled

namespace FilmQuery

/-- What a setting makes of what stands under its key. -/
def Setting.mergedInto (held : Option Setting) : Setting → Except FilterError Setting
  | .value v => .ok (.value v)
  | .list items =>
    match (held.getD (.value .nothing)).items? with
    | some old => .ok (.list (addNew Value.same old items))
    | none => .error .noList

/-- What stands under a key after a patch that may set it. -/
def Setting.afterwards (held : Option Setting) :
    Option Setting → Except FilterError (Option Setting)
  | none => .ok held
  | some setting => (setting.mergedInto held).map some

namespace Filters

/-- What comes of filters, told for every key by itself: if it goes well for all keys, each holds
what is said, and otherwise it goes wrong for some key. -/
def Tells (said : String → Except FilterError (Option Setting)) : Except FilterError Filters → Prop
  | .ok next => ∀ key, said key = .ok (Record.get? next key)
  | .error e => e = .noList ∧ ∃ key, said key = .error .noList

variable {filters changes : Filters} {key : String} {setting : Setting}

/-- Setting a filter is a matter of its key. -/
theorem change_eq : filters.change key setting =
    (setting.mergedInto (Record.get? filters key)).map fun next => Record.set key next filters := by
  cases setting with
  | value v => rfl
  | list items =>
      rw [change, Filters.setting, Setting.mergedInto]
      cases ((Record.get? filters key).getD (.value .nothing)).items? <;> rfl

/-- A list is set to the items that were there and the new ones behind them. -/
theorem exists_items_of_mergedInto {held : Option Setting} {items : List Value} {after : Setting}
    (merged : (Setting.list items).mergedInto held = .ok after) :
    ∃ old, (held.getD (.value .nothing)).items? = some old ∧
      after = .list (addNew Value.same old items) := by
  rw [Setting.mergedInto] at merged
  split at merged
  next old present => exact ⟨old, present, (Except.ok.inj merged).symm⟩
  next => cases merged

theorem error_of_mergedInto {held : Option Setting} {e : FilterError}
    (failed : setting.mergedInto held = .error e) : e = .noList := by
  cases setting with
  | value v => cases failed
  | list items =>
      rw [Setting.mergedInto] at failed
      split at failed
      · cases failed
      · exact (Except.error.inj failed).symm

/-- Setting filters one after the other is a matter of each key, if none is set twice. -/
theorem tells_merge (nodup : (changes.map Prod.fst).Nodup) :
    Tells (fun key => Setting.afterwards (Record.get? filters key) (Record.get? changes key))
      (filters.merge changes) := by
  induction changes generalizing filters with
  | nil => exact fun key => rfl
  | cons change rest ih =>
      obtain ⟨key, setting⟩ := change
      rw [List.map_cons, List.nodup_cons] at nodup
      have own : Record.get? ((key, setting) :: rest) key = some setting := by
        rw [Record.get?_cons, if_pos rfl]
      have others {other : String} (apart : other ≠ key) :
          Record.get? ((key, setting) :: rest) other = Record.get? rest other := by
        rw [Record.get?_cons, if_neg apart]
      rw [merge, change_eq]
      cases merged : setting.mergedInto (Record.get? filters key) with
      | error e =>
          have cause := error_of_mergedInto merged
          refine ⟨cause, key, ?_⟩
          simp only [own, Setting.afterwards, merged, cause]
          rfl
      | ok next =>
          -- The rest leaves this key alone, and this key does not matter to the rest.
          have later := @ih (Record.set key next filters) nodup.2
          have left : Record.get? rest key = none := Record.get?_eq_none nodup.1
          have said (other : String) :
              Setting.afterwards (Record.get? (Record.set key next filters) other)
                  (Record.get? rest other) =
                Setting.afterwards (Record.get? filters other)
                  (Record.get? ((key, setting) :: rest) other) := by
            by_cases same : other = key
            · subst same
              rw [Record.get?_set, if_pos rfl, left, own, Setting.afterwards, Setting.afterwards,
                merged]
              rfl
            · rw [Record.get?_set, if_neg same, others same]
          simp only [said] at later
          exact later

end Filters

namespace Field

/-- Every field, in the order in which a patch sets them. -/
def all : List Field :=
  [.contentType, .primaryReleaseDate, .firstAirDate, .voteAverage, .watchProviders, .genres,
    .withoutGenres, .watchRegion]

theorem mem_all (field : Field) : field ∈ all := by
  cases field <;> decide

/-- Whether a setting has the form that a field asks for. -/
def Takes : Field → Setting → Prop
  | .contentType, setting | .watchRegion, setting => ∃ word, setting = .value (.text word)
  | .primaryReleaseDate, setting | .firstAirDate, setting =>
    ∃ range, setting = .value (.years range)
  | .voteAverage, setting => ∃ range, setting = .value (.ratings range)
  | .watchProviders, setting | .genres, setting | .withoutGenres, setting =>
    ∃ ids : List Int, setting = .list (ids.map .number)

/-- Whether a field has items. -/
def hasItems : Field → Bool
  | .watchProviders | .genres | .withoutGenres => true
  | _ => false

end Field

/-- What a field with one value is set to, if it has one. -/
def Setting.ofValue? (value : Value) : Option Setting :=
  if value = .nothing then none else some (.value value)

/-- What a field with items is set to, if it has any. -/
def Setting.ofItems? (items : List Value) : Option Setting :=
  if items = [] then none else some (.list items)

namespace Patch

/-- What a patch sets a field to, if it sets it. -/
def setting? (patch : Patch) : Field → Option Setting
  | .contentType => Setting.ofValue? patch.contentType
  | .primaryReleaseDate => Setting.ofValue? patch.primaryReleaseDate
  | .firstAirDate => Setting.ofValue? patch.firstAirDate
  | .voteAverage => Setting.ofValue? patch.voteAverage
  | .watchProviders => Setting.ofItems? patch.watchProviders
  | .genres => Setting.ofItems? patch.genres
  | .withoutGenres => Setting.ofItems? patch.withoutGenres
  | .watchRegion => Setting.ofValue? patch.watchRegion

/-- Whether every field that is set has a value of its own form. -/
def IsTyped (patch : Patch) : Prop :=
  ∀ field, ∀ setting ∈ patch.setting? field, field.Takes setting

/-- What a patch sets, under the keys of its fields. -/
def sets (patch : Patch) : Filters :=
  Field.all.filterMap fun field => (patch.setting? field).map (field.key, ·)

variable {patch : Patch} {filters : Filters}

theorem nodup_keys_sets (patch : Patch) : (patch.sets.map Prod.fst).Nodup := by
  have keys : (Field.all.map Field.key).Nodup := by decide
  refine keys.sublist ?_
  rw [sets, List.map_filterMap]
  induction Field.all with
  | nil => exact List.Sublist.refl []
  | cons field fields ih =>
      rw [List.filterMap_cons]
      cases patch.setting? field with
      | none => exact ih.cons field.key
      | some setting => exact ih.cons_cons field.key

/-- A patch sets a key if it is that of a field that it sets. -/
theorem get?_sets_eq_some_iff {key : String} {setting : Setting} :
    Record.get? patch.sets key = some setting ↔
      ∃ field : Field, field.key = key ∧ patch.setting? field = some setting := by
  rw [Record.get?_eq_some_iff patch.nodup_keys_sets, sets, List.mem_filterMap]
  constructor
  · rintro ⟨field, _, set⟩
    obtain ⟨_, found, same⟩ := Option.map_eq_some_iff.mp set
    cases same
    exact ⟨field, rfl, found⟩
  · rintro ⟨field, rfl, found⟩
    exact ⟨field, field.mem_all, by rw [found, Option.map_some]⟩

theorem get?_sets_key (patch : Patch) (field : Field) :
    Record.get? patch.sets field.key = patch.setting? field := by
  refine Option.ext fun setting => get?_sets_eq_some_iff.trans
    ⟨?_, fun found => ⟨field, rfl, found⟩⟩
  rintro ⟨other, key, found⟩
  rwa [Field.key_inj key] at found

/-- A field with one value has none or one of its own form. -/
theorem IsTyped.value (typed : patch.IsTyped) (field : Field) {value : Value}
    (same : patch.setting? field = Setting.ofValue? value) :
    value = .nothing ∨ field.Takes (.value value) := by
  by_cases nothing : value = .nothing
  · exact .inl nothing
  · refine .inr (typed field _ ?_)
    rw [same, Setting.ofValue?, if_neg nothing]
    exact Option.mem_some_self _

/-- A value of its own form is set as it is: it is no list. -/
theorem single_eq {field : Field} {value : Value}
    (own : value = .nothing ∨ field.Takes (.value value)) (key : String) :
    single key value = ((Setting.ofValue? value).map (key, ·)).toList := by
  have noList (items : List Json) : value ≠ .plain (.arr items) := by
    rintro rfl
    rcases own with nothing | takes
    · cases nothing
    · cases field <;> obtain ⟨_, same⟩ := takes <;> cases same
  unfold single Setting.ofValue?
  split
  next => rfl
  next items => exact absurd rfl (noList items)
  next something _ => rw [if_neg something, Option.map_some, Option.toList_some]

theorem several_eq (key : String) (items : List Value) :
    several key items = ((Setting.ofItems? items).map (key, ·)).toList := by
  unfold several Setting.ofItems?
  cases items <;> rfl

/-- A patch with values of their own form sets its fields, in their order. -/
theorem filters_eq (typed : patch.IsTyped) : patch.filters = .ok patch.sets := by
  have content := typed.value .contentType rfl
  have movie := typed.value .primaryReleaseDate rfl
  have tv := typed.value .firstAirDate rfl
  have votes := typed.value .voteAverage rfl
  have region := typed.value .watchRegion rfl
  have range {value : Value} (own : value = .nothing ∨
      Field.primaryReleaseDate.Takes (.value value) ∨ Field.voteAverage.Takes (.value value)) :
      isRange value = true := by
    rcases own with rfl | ⟨_, same⟩ | ⟨_, same⟩
    · rfl
    · cases same
      rfl
    · cases same
      rfl
  have ranges : patch.ranges.all isRange = true := by
    simp only [Patch.ranges, List.all_cons, List.all_nil, range (movie.imp id .inl),
      range (tv.imp id .inl), range (votes.imp id .inr), Bool.and_true]
  rw [filters, if_pos ranges, single_eq content, single_eq movie, single_eq tv, single_eq votes,
    single_eq region, sets, List.filterMap_eq_flatMap_toList]
  simp only [several_eq, Field.all, List.flatMap_cons, List.flatMap_nil, List.append_nil,
    List.append_assoc]
  rfl

/-- Merging a patch with values of their own form is setting its fields. -/
theorem mergeInto_eq (typed : patch.IsTyped) :
    patch.mergeInto filters = filters.merge patch.sets := by
  rw [mergeInto, filters_eq typed]
  rfl

/-- Merging a patch is a matter of each key. -/
theorem tells_mergeInto (typed : patch.IsTyped) (filters : Filters) :
    Filters.Tells (fun key => Setting.afterwards (Record.get? filters key)
      (Record.get? patch.sets key)) (patch.mergeInto filters) := by
  rw [mergeInto_eq typed]
  exact Filters.tells_merge patch.nodup_keys_sets

end Patch

/-- Numbers are added behind the items that are there: those that equal none of them, each where it
comes first. -/
theorem addNew_numbers (old : List Value) (ids : List Int) :
    addNew Value.same old (ids.map .number) =
      old ++ distinctNumbers (ids.filter fun id => !old.any (Value.same · (.number id))) := by
  induction ids using List.reverseRecOn with
  | nil => exact (List.append_nil old).symm
  | append_singleton ids id ih =>
      have there (new : List Int) : (old ++ distinctNumbers new).any (Value.same · (.number id)) =
          (old.any (Value.same · (.number id)) || decide (id ∈ new)) := by
        rw [List.any_append, Bool.eq_iff_iff]
        simp [distinctNumbers, same_number]
      have last : addNew Value.same old ((ids ++ [id]).map .number) =
          addNew Value.same (addNew Value.same old (ids.map .number)) [.number id] := by
        rw [List.map_append, addNew, List.foldl_append]
        rfl
      rw [last, ih, addNew, List.foldl_cons, List.foldl_nil, there, List.filter_append,
        List.filter_singleton]
      cases old.any (Value.same · (.number id)) with
      | true => simp
      | false =>
          generalize ids.filter _ = new
          by_cases again : id ∈ new <;> simp [again, distinctNumbers, eraseDups_concat]

namespace Json

/-- Whether a value has elements, be it none. -/
def hasElements : Json → Bool
  | .arr _ | .str _ | .obj _ => true
  | _ => false

/-- The elements of a value: the items of a list, the characters of a text, the keys of an object.
Any other value has none. -/
def elements : Json → List Json
  | .arr items => items
  | .str text => text.toList.map fun c => .str (String.ofList [c])
  | .obj fields => fields.map fun (key, _) => .str key
  | _ => []

/-- The numbers among some that equal no element of a value, each where it comes first. -/
def missing (held : Json) (ids : List Int) : List Int :=
  (ids.filter fun id => !held.elements.any (Json.same · (.int id))).eraseDups

/-- A value that says something but has no elements cannot become a list; any other becomes the list
of its elements. -/
theorem items?_value (held : Json) : (Setting.value (.plain held)).items? =
    if held.truthy = true ∧ held.hasElements = false then none
    else some (held.elements.map .plain) := by
  cases held with
  | null => rfl
  | bool value => cases value <;> rfl
  | int value =>
      cases truth : (int value).truthy <;>
        simp [Setting.items?, Value.truthy, Value.items?, hasElements, elements, truth]
  | real value =>
      cases truth : (real value).truthy <;>
        simp [Setting.items?, Value.truthy, Value.items?, hasElements, elements, truth]
  | str text =>
      by_cases empty : text = "" <;>
        simp [Setting.items?, Value.truthy, Value.items?, truthy, hasElements, elements, empty]
  | arr items | obj items =>
      cases items <;>
        simp [Setting.items?, Value.truthy, Value.items?, truthy, hasElements, elements]

end Json

namespace Setting

/-- Whether a setting is a range. -/
def isRange : Setting → Bool
  | .value (.years _) | .value (.ratings _) => true
  | _ => false

/-- What is no range has items or not as the JSON has that it is written as. -/
theorem items?_eq_none_iff {setting : Setting} (noRange : setting.isRange = false) :
    setting.items? = none ↔
      setting.toJson.truthy = true ∧ setting.toJson.hasElements = false := by
  cases setting with
  | list items => simp [items?, toJson, Json.hasElements]
  | value v =>
      cases v with
      | plain json =>
          rw [Json.items?_value]
          simp [toJson, Value.toJson]
      | numbers ns =>
          cases ns <;> simp [items?, Value.truthy, Value.items?, toJson, Value.toJson,
            Json.hasElements]
      | years range | ratings range => cases noRange

end Setting

namespace Filters

theorem get?_toFields (filters : Filters) (key : String) :
    Record.get? filters.toFields key = (Record.get? filters key).map Setting.toJson :=
  Record.get?_map Setting.toJson filters key

/-- Filters that were read are written as they were read. -/
theorem toFields_ofFields (fields : Json.Fields) : (ofFields fields).toFields = fields := by
  rw [toFields, ofFields, List.map_map]
  exact List.map_id fields

/-- Where a list may be set no range stands. This is so in filters that were read from JSON, which
has no ranges, and remains so, since a range is set under a key of its own. -/
def IsJson (filters : Filters) : Prop :=
  ∀ field : Field, field.hasItems = true →
    ∀ setting, Record.get? filters field.key = some setting → setting.isRange = false

theorem isJson_ofFields (fields : Json.Fields) : (ofFields fields).IsJson := by
  intro field _ setting found
  rw [ofFields, Record.get?_map fun held => Setting.value (.plain held)] at found
  obtain ⟨_, _, rfl⟩ := Option.map_eq_some_iff.mp found
  rfl

/-- What stands under the key of a field that has items. -/
theorem IsJson.noRange {filters : Filters} (json : filters.IsJson) {field : Field}
    (items : field.hasItems = true) :
    ((Record.get? filters field.key).getD (.value .nothing)).isRange = false := by
  cases found : Record.get? filters field.key with
  | none => rfl
  | some setting => exact json field items setting found

theorem toJson_getD (filters : Filters) (key : String) :
    ((Record.get? filters key).getD (.value .nothing)).toJson =
      (Json.obj filters.toFields).field key := by
  rw [Json.field, get?_toFields]
  cases Record.get? filters key <;> rfl

/-- What a key of JSON filters becomes if numbers are added under it. -/
theorem mergedInto_numbers (fields : Json.Fields) (key : String) (ids : List Int) :
    let held := (Json.obj fields).field key
    (Setting.list (ids.map .number)).mergedInto (Record.get? (ofFields fields) key) =
      if held.truthy = true ∧ held.hasElements = false then .error .noList
      else .ok (.list (held.elements.map .plain ++ (held.missing ids).map .number)) := by
  intro held
  have there : (Record.get? (ofFields fields) key).getD (.value .nothing) =
      .value (.plain held) := by
    rw [ofFields, Record.get?_map fun held => Setting.value (.plain held)]
    cases found : Record.get? fields key <;> simp [held, Json.field, found]
  rw [Setting.mergedInto, there, Json.items?_value]
  by_cases closed : held.truthy = true ∧ held.hasElements = false
  · simp only [if_pos closed]
  · have new : (ids.filter fun id =>
          !(held.elements.map .plain).any (Value.same · (.number id))).eraseDups =
        held.missing ids := by
      simp only [Json.missing, List.any_map]
      rfl
    simp only [if_neg closed, addNew_numbers, distinctNumbers, new]

end Filters

namespace Patch

variable {patch : Patch}

/-- What stands under each key after a patch was merged. -/
theorem get?_of_mergeInto {filters next : Filters} (typed : patch.IsTyped)
    (merged : patch.mergeInto filters = .ok next) (key : String) :
    Setting.afterwards (Record.get? filters key) (Record.get? patch.sets key) =
      .ok (Record.get? next key) := by
  have told := tells_mergeInto typed filters
  rw [merged] at told
  exact told key

/-- A key that a patch does not set keeps what it holds. -/
theorem get?_of_not_set {filters next : Filters} (typed : patch.IsTyped)
    (merged : patch.mergeInto filters = .ok next) {key : String}
    (left : Record.get? patch.sets key = none) :
    Record.get? next key = Record.get? filters key := by
  have there := get?_of_mergeInto typed merged key
  rw [left] at there
  exact (Except.ok.inj there).symm

/-- A key that a patch sets holds what its setting makes of what was there. -/
theorem exists_mergedInto {filters next : Filters} (typed : patch.IsTyped)
    (merged : patch.mergeInto filters = .ok next) {key : String} {setting : Setting}
    (set : Record.get? patch.sets key = some setting) :
    ∃ after, setting.mergedInto (Record.get? filters key) = .ok after ∧
      Record.get? next key = some after := by
  have there := get?_of_mergeInto typed merged key
  rw [set, Setting.afterwards] at there
  cases made : setting.mergedInto (Record.get? filters key) with
  | error e =>
      rw [made] at there
      cases there
  | ok after =>
      rw [made] at there
      exact ⟨after, rfl, (Except.ok.inj there).symm⟩

/-- A patch cannot be merged if and only if one of its settings cannot. -/
theorem mergeInto_eq_error_iff {filters : Filters} (typed : patch.IsTyped) {e : FilterError} :
    patch.mergeInto filters = .error e ↔
      e = .noList ∧ ∃ field setting, patch.setting? field = some setting ∧
        setting.mergedInto (Record.get? filters field.key) = .error .noList := by
  constructor
  · intro failed
    have told := tells_mergeInto typed filters
    rw [failed] at told
    obtain ⟨cause, key, wrong⟩ := told
    refine ⟨cause, ?_⟩
    change Setting.afterwards _ _ = _ at wrong
    cases set : Record.get? patch.sets key with
    | none =>
        rw [set] at wrong
        cases wrong
    | some setting =>
        obtain ⟨field, rfl, found⟩ := get?_sets_eq_some_iff.mp set
        refine ⟨field, setting, found, ?_⟩
        rw [set, Setting.afterwards] at wrong
        cases made : setting.mergedInto (Record.get? filters field.key) with
        | error e => rw [Filters.error_of_mergedInto made]
        | ok after =>
            rw [made] at wrong
            cases wrong
  · rintro ⟨rfl, field, setting, found, wrong⟩
    cases merged : patch.mergeInto filters with
    | error e =>
        have told := tells_mergeInto typed filters
        rw [merged] at told
        rw [told.1]
    | ok next =>
        obtain ⟨after, made, _⟩ := exists_mergedInto typed merged
          ((get?_sets_key patch field).trans found)
        rw [wrong] at made
        cases made

open Filters (get?_toFields toFields_ofFields mergedInto_numbers)

/-- A list is of numbers. -/
theorem IsTyped.numbers (typed : patch.IsTyped) {field : Field} {items : List Value}
    (set : patch.setting? field = some (.list items)) :
    ∃ ids : List Int, items = ids.map .number := by
  have takes := typed field _ set
  cases field <;> obtain ⟨_, same⟩ := takes <;> cases same
  all_goals exact ⟨_, rfl⟩

/-- A field with items has numbers. -/
theorem IsTyped.items (typed : patch.IsTyped) {field : Field} {items : List Value}
    (same : patch.setting? field = Setting.ofItems? items) :
    ∃ ids : List Int, items = ids.map .number := by
  by_cases empty : items = []
  · exact ⟨[], empty⟩
  · exact typed.numbers (same.trans (if_neg empty))

/-- The numbers of a list equal themselves. -/
theorem IsTyped.same_self (typed : patch.IsTyped) {key : String} {items : List Value}
    (set : Record.get? patch.sets key = some (.list items)) :
    ∀ x ∈ items, Value.same x x = true := by
  obtain ⟨field, _, found⟩ := get?_sets_eq_some_iff.mp set
  obtain ⟨ids, rfl⟩ := typed.numbers found
  intro x mem
  obtain ⟨id, _, rfl⟩ := List.mem_map.mp mem
  rw [same_number, beq_self_eq_true]

/-- A patch that was merged is merged into what came of it without changing it. -/
theorem mergeInto_again {filters next : Filters} (typed : patch.IsTyped)
    (merged : patch.mergeInto filters = .ok next) : patch.mergeInto next = .ok next := by
  rw [mergeInto_eq typed]
  refine Filters.merge_of_holds fun entry mem => ?_
  obtain ⟨key, setting⟩ := entry
  have set := (Record.get?_eq_some_iff patch.nodup_keys_sets).mpr mem
  obtain ⟨after, made, there⟩ := exists_mergedInto typed merged set
  cases setting with
  | value v =>
      cases made
      exact there
  | list items =>
      obtain ⟨old, _, rfl⟩ := Filters.exists_items_of_mergedInto made
      exact ⟨_, there, any_addNew (typed.same_self set)⟩

/-- Only a field that has items has a list. -/
theorem IsTyped.hasItems (typed : patch.IsTyped) {field : Field} {items : List Value}
    (set : patch.setting? field = some (.list items)) : field.hasItems = true := by
  have takes := typed field _ set
  cases field <;> obtain ⟨_, same⟩ := takes <;> cases same <;> rfl

/-- Merging a patch into filters with no range where a list may be set fails if and only if the
patch has a list for a key whose value, as JSON, says something but has no elements. -/
theorem mergeInto_eq_error_iff_of_isJson {filters : Filters} (typed : patch.IsTyped)
    (json : filters.IsJson) (e : FilterError) : patch.mergeInto filters = .error e ↔
      e = .noList ∧ ∃ field items, patch.setting? field = some (.list items) ∧
        ((Json.obj filters.toFields).field field.key).truthy = true ∧
        ((Json.obj filters.toFields).field field.key).hasElements = false := by
  have closed_iff {field : Field} {items : List Value}
      (set : patch.setting? field = some (.list items)) :
      ((Record.get? filters field.key).getD (.value .nothing)).items? = none ↔
        ((Json.obj filters.toFields).field field.key).truthy = true ∧
          ((Json.obj filters.toFields).field field.key).hasElements = false := by
    rw [← Filters.toJson_getD]
    exact Setting.items?_eq_none_iff (json.noRange (typed.hasItems set))
  rw [mergeInto_eq_error_iff typed]
  refine and_congr_right fun _ => exists_congr fun field => ⟨?_, ?_⟩
  · rintro ⟨setting, set, wrong⟩
    cases setting with
    | value v => cases wrong
    | list items =>
        refine ⟨items, set, (closed_iff set).mp ?_⟩
        rw [Setting.mergedInto] at wrong
        split at wrong
        · cases wrong
        next closed => exact closed
  · rintro ⟨items, set, closed⟩
    refine ⟨.list items, set, ?_⟩
    rw [Setting.mergedInto, (closed_iff set).mpr closed]

/-- Merging a patch sets no range where a list may be set. -/
theorem isJson_of_mergeInto {filters next : Filters} (typed : patch.IsTyped)
    (json : filters.IsJson) (merged : patch.mergeInto filters = .ok next) : next.IsJson := by
  intro field items setting found
  cases set : patch.setting? field with
  | none =>
      rw [get?_of_not_set typed merged ((get?_sets_key patch field).trans set)] at found
      exact json field items setting found
  | some change =>
      obtain ⟨after, made, there⟩ := exists_mergedInto typed merged
        ((get?_sets_key patch field).trans set)
      rw [found] at there
      cases there
      have takes := typed field _ set
      cases field <;> cases items <;> obtain ⟨ids, rfl⟩ := takes
      all_goals
        obtain ⟨_, _, rfl⟩ := Filters.exists_items_of_mergedInto made
        rfl

/-- Merging a patch into filters that are a JSON object or missing.  It fails if and only if the
patch has a list for a key whose value says something but has no elements.  Otherwise a key that the
patch does not set keeps its value, one that it sets to a word or a range holds that, and one that
it adds numbers to holds the elements that were there and behind them the numbers that equal none of
these, each where it comes first.  Merging the patch again changes nothing. -/
theorem mergeInto_json (typed : patch.IsTyped) (state : Option Json.Fields) :
    let fields := state.getD []
    let held (field : Field) := (Json.obj fields).field field.key
    (∀ e, patch.mergeInto (.ofFields fields) = .error e ↔
      e = .noList ∧ ∃ field items, patch.setting? field = some (.list items) ∧
        (held field).truthy = true ∧ (held field).hasElements = false) ∧
    ∀ next, patch.mergeInto (.ofFields fields) = .ok next →
      (∀ key, (∀ field : Field, field.key = key → patch.setting? field = none) →
        Record.get? next.toFields key = Record.get? fields key) ∧
      (∀ field v, patch.setting? field = some (.value v) →
        Record.get? next.toFields field.key = some v.toJson) ∧
      (∀ field (ids : List Int), patch.setting? field = some (.list (ids.map .number)) →
        Record.get? next.toFields field.key =
          some (.arr ((held field).elements ++ ((held field).missing ids).map .int))) ∧
      patch.mergeInto next = .ok next := by
  intro fields held
  refine ⟨fun e => ?_, fun next merged => ⟨?_, ?_, ?_, ?_⟩⟩
  · rw [mergeInto_eq_error_iff_of_isJson typed (Filters.isJson_ofFields fields), toFields_ofFields]
  · intro key unset
    have left : Record.get? patch.sets key = none := by
      rw [Option.eq_none_iff_forall_ne_some]
      intro setting set
      obtain ⟨field, named, found⟩ := get?_sets_eq_some_iff.mp set
      rw [unset field named] at found
      cases found
    rw [get?_toFields, get?_of_not_set typed merged left, ← get?_toFields, toFields_ofFields]
  · intro field v set
    obtain ⟨after, made, there⟩ := exists_mergedInto typed merged
      ((get?_sets_key patch field).trans set)
    cases made
    rw [get?_toFields, there]
    rfl
  · intro field ids set
    obtain ⟨after, made, there⟩ := exists_mergedInto typed merged
      ((get?_sets_key patch field).trans set)
    rw [mergedInto_numbers] at made
    split at made
    · cases made
    · cases made
      have old : (held field).elements.map (Value.toJson ∘ .plain) = (held field).elements :=
        List.map_id _
      rw [get?_toFields, there, Option.map_some, Setting.toJson, List.map_append, List.map_map,
        List.map_map, old]
      rfl
  · exact mergeInto_again typed merged

/-- Comedies among shows, one of them named twice. -/
def comedyShows : Patch where
  contentType := .text "tv"
  genres := [.number 35, .number 28, .number 35]

theorem isTyped_comedyShows : comedyShows.IsTyped := by
  intro field setting set
  cases field <;> cases set
  · exact ⟨_, rfl⟩
  · exact ⟨[35, 28, 35], rfl⟩

/-- A genre that is there as a double is not added again, and a number cannot become a list. -/
theorem mergeInto_json_comedyShows : comedyShows.IsTyped ∧
    comedyShows.mergeInto (.ofFields [("with_genres", .int 7)]) = .error .noList ∧
    ∃ next, comedyShows.mergeInto (.ofFields [("page", .int 3),
        ("with_genres", .arr [.str "any", .real (.ofInt 28)])]) = .ok next ∧
      Record.get? next.toFields "page" = some (.int 3) ∧
      Record.get? next.toFields "content_type" = some (.str "tv") ∧
      Record.get? next.toFields "with_genres" =
        some (.arr [.str "any", .real (.ofInt 28), .int 35]) ∧
      comedyShows.mergeInto next = .ok next := by
  have typed := isTyped_comedyShows
  obtain ⟨fails, _⟩ := mergeInto_json typed (some [("with_genres", .int 7)])
  refine ⟨typed, (fails .noList).mpr ⟨rfl, .genres, _, rfl, rfl, rfl⟩, ?_⟩
  let state : Json.Fields :=
    [("page", .int 3), ("with_genres", .arr [.str "any", .real (.ofInt 28)])]
  obtain ⟨next, merged⟩ : ∃ next, comedyShows.mergeInto (.ofFields state) = .ok next := ⟨_, rfl⟩
  obtain ⟨kept, set, added, again⟩ := (mergeInto_json typed (some state)).2 next merged
  have new : Json.missing (.arr [.str "any", .real (.ofInt 28)]) [35, 28, 35] = [35] := by
    decide +kernel
  refine ⟨next, merged, ?_, ?_, ?_, again⟩
  · refine (kept "page" fun field named => ?_).trans rfl
    cases field <;> first | rfl | exact absurd named (by decide)
  · exact set .contentType (.text "tv") rfl
  · refine (added .genres [35, 28, 35] rfl).trans ?_
    change some (Json.arr (_ ++ (Json.missing (.arr [.str "any", .real (.ofInt 28)])
      [35, 28, 35]).map .int)) = _
    rw [new]
    rfl

end Patch

end FilmQuery
