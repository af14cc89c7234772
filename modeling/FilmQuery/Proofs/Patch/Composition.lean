/-
# One patch after another

Merging two patches one after the other is merging one patch, in which the later value of a field
stands and the items of a list stand behind those of the earlier one (`Patch.andThen`).  The law
holds for every field by itself (`Patch.afterwards_andThen`), and with it for all filters, be it
that both ways fail or that both come to the same filters (`Patch.mergeInto_andThen`).

Patches with no field in common can be merged in either order.
-/
import FilmQuery.Proofs.Patch.Merging

namespace FilmQuery

section Items

variable {α : Type} {same : α → α → Bool} {old new : List α}

theorem addNew_append (first second : List α) :
    addNew same old (first ++ second) = addNew same (addNew same old first) second :=
  List.foldl_append

/-- Items that are there already need not be added. -/
theorem addNew_filter {keep : α → Bool}
    (there : ∀ x ∈ new, keep x = false → old.any (same · x) = true) :
    addNew same old (new.filter keep) = addNew same old new := by
  induction new generalizing old with
  | nil => rfl
  | cons x new ih =>
      have later {now : List α} (grown : old ⊆ now) :
          ∀ y ∈ new, keep y = false → now.any (same · y) = true := by
        intro y mem dropped
        obtain ⟨item, inOld, equal⟩ :=
          List.any_eq_true.mp (there y (List.mem_cons_of_mem x mem) dropped)
        exact List.any_eq_true.mpr ⟨item, grown inOld, equal⟩
      cases kept : keep x with
      | true =>
          rw [List.filter_cons_of_pos kept, addNew, List.foldl_cons, addNew, List.foldl_cons]
          refine ih (later ?_)
          split
          · exact fun _ => id
          · exact List.subset_append_left old [x]
      | false =>
          have present := there x List.mem_cons_self kept
          rw [List.filter_cons_of_neg (by simp [kept]), ih (later fun _ => id), addNew, addNew,
            List.foldl_cons, if_pos present]

end Items

namespace Filters

variable {filters : Filters}

/-- Two outcomes agree if both went wrong in the same way, or if both are filters with the same
setting under every key. -/
def Agree : Except FilterError Filters → Except FilterError Filters → Prop
  | .ok left, .ok right => ∀ key, Record.get? left key = Record.get? right key
  | .error e, .error f => e = f
  | _, _ => False

variable {said other : String → Except FilterError (Option Setting)}
  {result outcome : Except FilterError Filters}

/-- There is only one outcome of which the same can be told. -/
theorem Tells.agree (tells : Tells said result) (alike : ∀ key, said key = other key)
    (others : Tells other outcome) : Agree result outcome := by
  cases result with
  | ok left =>
      cases outcome with
      | ok right =>
          intro key
          exact Except.ok.inj ((tells key).symm.trans ((alike key).trans (others key)))
      | error f =>
          obtain ⟨_, key, wrong⟩ := others
          have right := (tells key).symm.trans ((alike key).trans wrong)
          cases right
  | error e =>
      obtain ⟨cause, key, wrong⟩ := tells
      cases outcome with
      | ok right =>
          have left := (others key).symm.trans ((alike key).symm.trans wrong)
          cases left
      | error f => exact cause.trans others.1.symm

end Filters

namespace Patch

/-- The value of a field that stands when another may come after it. -/
def laterValue (earlier later : Value) : Value := if later = .nothing then earlier else later

/-- The items of a list and behind them those of another that are not among them. -/
def joinedItems (earlier later : List Value) : List Value :=
  earlier ++ later.filter fun x => !earlier.any (Value.same · x)

/-- One patch after another, as one patch. -/
def andThen (p q : Patch) : Patch where
  contentType := laterValue p.contentType q.contentType
  primaryReleaseDate := laterValue p.primaryReleaseDate q.primaryReleaseDate
  firstAirDate := laterValue p.firstAirDate q.firstAirDate
  voteAverage := laterValue p.voteAverage q.voteAverage
  watchProviders := joinedItems p.watchProviders q.watchProviders
  genres := joinedItems p.genres q.genres
  withoutGenres := joinedItems p.withoutGenres q.withoutGenres
  watchRegion := laterValue p.watchRegion q.watchRegion

variable {p q : Patch} {filters : Filters}

theorem ofValue?_laterValue (earlier later : Value) :
    Setting.ofValue? (laterValue earlier later) =
      (Setting.ofValue? later).or (Setting.ofValue? earlier) := by
  unfold laterValue
  split
  next nothing => rw [Setting.ofValue?.eq_1 later, if_pos nothing, Option.none_or]
  next something => rw [Setting.ofValue?, if_neg something, Option.some_or]

/-- Setting values one after the other sets the later one. -/
theorem afterwards_laterValue (held : Option Setting) (earlier later : Value) :
    (Setting.afterwards held (Setting.ofValue? earlier) >>=
        fun next => Setting.afterwards next (Setting.ofValue? later)) =
      Setting.afterwards held (Setting.ofValue? (laterValue earlier later)) := by
  rw [ofValue?_laterValue]
  unfold Setting.ofValue?
  split <;> split <;> rfl

/-- Numbers that are among those before them need not be added once more. -/
theorem addNew_joinedItems (old : List Value) (earlier later : List Int) :
    addNew Value.same old (joinedItems (earlier.map .number) (later.map .number)) =
      addNew Value.same (addNew Value.same old (earlier.map .number)) (later.map .number) := by
  rw [joinedItems, addNew_append]
  refine addNew_filter fun x mem dropped => ?_
  obtain ⟨id, _, rfl⟩ := List.mem_map.mp mem
  have among : .number id ∈ earlier.map Value.number := by
    rw [Bool.not_eq_false'] at dropped
    obtain ⟨_, there, equal⟩ := List.any_eq_true.mp dropped
    obtain ⟨other, inEarlier, rfl⟩ := List.mem_map.mp there
    rw [same_number, beq_iff_eq] at equal
    exact List.mem_map.mpr ⟨other, inEarlier, congrArg _ equal⟩
  refine any_addNew (fun y mem => ?_) _ among
  obtain ⟨other, _, rfl⟩ := List.mem_map.mp mem
  rw [same_number, beq_self_eq_true]

/-- Adding numbers one after the other adds all of them. -/
theorem mergedInto_joinedItems (held : Option Setting) (earlier later : List Int) :
    ((Setting.list (earlier.map .number)).mergedInto held >>=
        fun next => (Setting.list (later.map .number)).mergedInto (some next)) =
      (Setting.list (joinedItems (earlier.map .number) (later.map .number))).mergedInto held := by
  simp only [Setting.mergedInto, addNew_joinedItems]
  cases (held.getD (.value .nothing)).items? <;> rfl

theorem afterwards_joinedItems (held : Option Setting) (earlier later : List Int) :
    (Setting.afterwards held (Setting.ofItems? (earlier.map .number)) >>=
        fun next => Setting.afterwards next (Setting.ofItems? (later.map .number))) =
      Setting.afterwards held
        (Setting.ofItems? (joinedItems (earlier.map .number) (later.map .number))) := by
  by_cases noneBefore : earlier = []
  · subst noneBefore
    have behind : joinedItems [] (later.map .number) = later.map .number := by
      simp [joinedItems]
    rw [List.map_nil, behind]
    rfl
  by_cases noneBehind : later = []
  · subst noneBehind
    have before : joinedItems (earlier.map .number) [] = earlier.map .number := by
      simp [joinedItems]
    rw [List.map_nil, before]
    cases Setting.afterwards held (Setting.ofItems? (earlier.map .number)) <;> rfl
  · have first : Setting.ofItems? (earlier.map .number) = some (.list (earlier.map .number)) :=
      if_neg (by simpa using noneBefore)
    have second : Setting.ofItems? (later.map .number) = some (.list (later.map .number)) :=
      if_neg (by simpa using noneBehind)
    have both : Setting.ofItems? (joinedItems (earlier.map .number) (later.map .number)) =
        some (.list (joinedItems (earlier.map .number) (later.map .number))) :=
      if_neg (by simp [joinedItems, noneBefore])
    rw [first, second, both]
    simp only [Setting.afterwards, ← mergedInto_joinedItems]
    cases (Setting.list (earlier.map .number)).mergedInto held <;> rfl

/-- What two patches make of a field with items one after the other. -/
theorem afterwards_of_items (typed : p.IsTyped) (typedLater : q.IsTyped) {field : Field}
    {earlier later : List Value} (set : p.setting? field = Setting.ofItems? earlier)
    (setLater : q.setting? field = Setting.ofItems? later) (held : Option Setting) :
    (Setting.afterwards held (p.setting? field) >>=
        fun next => Setting.afterwards next (q.setting? field)) =
      Setting.afterwards held (Setting.ofItems? (joinedItems earlier later)) := by
  obtain ⟨ids, rfl⟩ := typed.items set
  obtain ⟨others, rfl⟩ := typedLater.items setLater
  rw [set, setLater]
  exact afterwards_joinedItems held ids others

/-- What two patches make of a field one after the other. -/
theorem afterwards_andThen (typed : p.IsTyped) (typedLater : q.IsTyped) (held : Option Setting)
    (field : Field) :
    (Setting.afterwards held (p.setting? field) >>=
        fun next => Setting.afterwards next (q.setting? field)) =
      Setting.afterwards held ((p.andThen q).setting? field) := by
  cases field with
  | contentType | primaryReleaseDate | firstAirDate | voteAverage | watchRegion =>
      exact afterwards_laterValue held _ _
  | watchProviders | genres | withoutGenres =>
      exact afterwards_of_items typed typedLater rfl rfl held

/-- Items of two lists of numbers are numbers. -/
theorem exists_joinedItems (earlier later : List Int) : ∃ ids : List Int,
    joinedItems (earlier.map .number) (later.map .number) = ids.map .number :=
  ⟨earlier ++ later.filter _, by rw [joinedItems, List.filter_map, List.map_append]⟩

theorem takes_of_joinedItems (typed : p.IsTyped) (typedLater : q.IsTyped) (field : Field)
    {earlier later : List Value} (set : p.setting? field = Setting.ofItems? earlier)
    (setLater : q.setting? field = Setting.ofItems? later) {setting : Setting}
    (joined : setting ∈ Setting.ofItems? (joinedItems earlier later)) :
    ∃ ids : List Int, setting = .list (ids.map .number) := by
  obtain ⟨ids, rfl⟩ := typed.items set
  obtain ⟨others, rfl⟩ := typedLater.items setLater
  obtain ⟨all, same⟩ := exists_joinedItems ids others
  obtain ⟨_, list⟩ := Option.ite_none_left_eq_some.mp joined
  cases list
  exact ⟨all, by rw [same]⟩

/-- One patch after another has values of their own form if both have. -/
theorem IsTyped.andThen (typed : p.IsTyped) (typedLater : q.IsTyped) : (p.andThen q).IsTyped := by
  intro field setting set
  cases field with
  | contentType | primaryReleaseDate | firstAirDate | voteAverage | watchRegion =>
      have either := (ofValue?_laterValue _ _).symm.trans set
      rcases Option.or_eq_some_iff.mp either with later | ⟨_, earlier⟩
      · exact typedLater _ _ later
      · exact typed _ _ earlier
  | watchProviders => exact takes_of_joinedItems typed typedLater .watchProviders rfl rfl set
  | genres => exact takes_of_joinedItems typed typedLater .genres rfl rfl set
  | withoutGenres => exact takes_of_joinedItems typed typedLater .withoutGenres rfl rfl set

/-- What two patches make of filters one after the other can be told for every key by itself. -/
theorem tells_mergeInto_bind (typed : p.IsTyped) (typedLater : q.IsTyped) :
    Filters.Tells
      (fun key => Setting.afterwards (Record.get? filters key) (Record.get? p.sets key) >>=
        fun next => Setting.afterwards next (Record.get? q.sets key))
      (p.mergeInto filters >>= q.mergeInto) := by
  cases merged : p.mergeInto filters with
  | error e =>
      have told := tells_mergeInto typed filters
      rw [merged] at told
      obtain ⟨cause, key, wrong⟩ := told
      refine ⟨cause, key, ?_⟩
      change Setting.afterwards _ _ = _ at wrong
      simp only [wrong]
      rfl
  | ok middle =>
      have told := tells_mergeInto typedLater middle
      simp only [get?_of_mergeInto typed merged]
      exact told

/-- A key is that of a field, or no patch sets it. -/
theorem field_or_unset (key : String) :
    (∃ field : Field, field.key = key) ∨ ∀ patch : Patch, Record.get? patch.sets key = none := by
  by_cases known : ∃ field : Field, field.key = key
  · exact .inl known
  · refine .inr fun patch => Option.eq_none_iff_forall_ne_some.mpr fun setting set => ?_
    obtain ⟨field, same, _⟩ := get?_sets_eq_some_iff.mp set
    exact known ⟨field, same⟩

/-- Merging patches one after the other is merging both as one patch: both ways fail, or both come
to the same filters.  If the patches set no field in common, the order does not matter. -/
theorem mergeInto_andThen (typed : p.IsTyped) (typedLater : q.IsTyped) (filters : Filters) :
    Filters.Agree (p.mergeInto filters >>= q.mergeInto) ((p.andThen q).mergeInto filters) ∧
      ((∀ field, p.setting? field = none ∨ q.setting? field = none) →
        Filters.Agree (p.mergeInto filters >>= q.mergeInto)
          (q.mergeInto filters >>= p.mergeInto)) := by
  constructor
  · refine (tells_mergeInto_bind typed typedLater).agree (fun key => ?_)
      (tells_mergeInto (typed.andThen typedLater) filters)
    rcases field_or_unset key with ⟨field, rfl⟩ | unset
    · simp only [get?_sets_key]
      exact afterwards_andThen typed typedLater _ field
    · simp only [unset]
      rfl
  · intro apart
    refine (tells_mergeInto_bind typed typedLater).agree (fun key => ?_)
      (tells_mergeInto_bind typedLater typed)
    rcases field_or_unset key with ⟨field, rfl⟩ | unset
    · simp only [get?_sets_key]
      rcases apart field with none | none
      · rw [none]
        exact (bind_pure _).symm
      · rw [none]
        exact bind_pure _
    · simp only [unset]

/-- Films since a year, at a provider. -/
def streamedSince : Patch where
  primaryReleaseDate := .years ⟨some "2015", none⟩
  watchProviders := [.number 8]

theorem isTyped_streamedSince : streamedSince.IsTyped := by
  intro field setting set
  cases field <;> cases set
  · exact ⟨_, rfl⟩
  · exact ⟨[8], rfl⟩

/-- Two patches with no field in common, merged into filters with a text for genres. -/
theorem mergeInto_andThen_streamedSince :
    let filters : Filters := .ofFields [("with_genres", .str "ab")]
    comedyShows.IsTyped ∧ streamedSince.IsTyped ∧
      (∀ field, comedyShows.setting? field = none ∨ streamedSince.setting? field = none) ∧
      Filters.Agree (comedyShows.mergeInto filters >>= streamedSince.mergeInto)
        ((comedyShows.andThen streamedSince).mergeInto filters) ∧
      Filters.Agree (comedyShows.mergeInto filters >>= streamedSince.mergeInto)
        (streamedSince.mergeInto filters >>= comedyShows.mergeInto) := by
  intro filters
  have apart (field : Field) :
      comedyShows.setting? field = none ∨ streamedSince.setting? field = none := by
    cases field <;> decide
  obtain ⟨composed, commuted⟩ :=
    mergeInto_andThen isTyped_comedyShows isTyped_streamedSince filters
  exact ⟨isTyped_comedyShows, isTyped_streamedSince, apart, composed, commuted apart⟩

end Patch

end FilmQuery
