/-
# When applying fails, and what it changes

Applying builds a patch, merges it into the filters and adopts its content type.  Fragments with
values of the form that their kinds ask for come to a patch with values of their own form
(`Patch.isTyped_digest`), so applying them is merging that patch and nothing else
(`Session.apply_eq_map`).

The changes are made when nothing can fail any more: also where the session is changed in place, one
field after the other, it is as it was if applying fails (`Session.applyInPlace_eq`,
`Session.apply_atomic`).
-/
import FilmQuery.Proofs.Patch.Merging
import FilmQuery.Proofs.Session.Reapply

namespace FilmQuery

namespace Patch

theorem takes_of_ofValue? {field : Field} {value : Value} {setting : Setting}
    (own : value = .nothing ∨ field.Takes (.value value))
    (set : setting ∈ Setting.ofValue? value) : field.Takes setting := by
  obtain ⟨something, same⟩ := Option.ite_none_left_eq_some.mp set
  cases same
  exact own.resolve_left something

/-- What fragments come to has values of their own form. -/
theorem isTyped_digest (search : Medium) (fs : List Fragment) : (digest search fs).IsTyped := by
  have word (words : List String) : lastWord words = .nothing ∨
      ∃ word, Setting.value (lastWord words) = .value (.text word) := by
    refine (lastWord_eq words).imp id ?_
    rintro ⟨word, _, last⟩
    exact ⟨word, by rw [last]⟩
  have years (ranges : List YearRange) : YearRange.together ranges = .nothing ∨
      ∃ range, Setting.value (YearRange.together ranges) = .value (.years range) := by
    unfold YearRange.together
    split
    · exact .inl rfl
    · exact .inr ⟨_, rfl⟩
  have ratings (ranges : List RatingRange) : RatingRange.together ranges = .nothing ∨
      ∃ range, Setting.value (RatingRange.together ranges) = .value (.ratings range) := by
    unfold RatingRange.together
    split
    · exact .inl rfl
    · exact .inr ⟨_, rfl⟩
  have numbers (ns : List Int) {setting : Setting}
      (set : setting ∈ Setting.ofItems? (distinctNumbers ns)) :
      ∃ ids : List Int, setting = .list (ids.map .number) := by
    obtain ⟨_, same⟩ := Option.ite_none_left_eq_some.mp set
    cases same
    exact ⟨ns.eraseDups, rfl⟩
  intro field setting set
  cases field with
  | contentType | watchRegion => exact takes_of_ofValue? (word _) set
  | primaryReleaseDate | firstAirDate => exact takes_of_ofValue? (years _) set
  | voteAverage => exact takes_of_ofValue? (ratings _) set
  | watchProviders | genres | withoutGenres => exact numbers _ set

end Patch

namespace Session

variable {s next : Session} {patch : Patch}

/-- A patch that sets nothing names nothing to search for. -/
theorem contentType_of_sets_eq_nil (empty : patch.sets = []) : patch.contentType = .nothing := by
  have unset : Setting.ofValue? patch.contentType = none := by
    have left := patch.get?_sets_key .contentType
    rw [empty] at left
    exact left.symm
  by_contra something
  rw [Setting.ofValue?, if_neg something] at unset
  cases unset

/-- Applying a patch with values of their own form is merging it and adopting its content type. -/
theorem apply_eq_map (building : s.buildPatch = .ok patch) (typed : patch.IsTyped) :
    s.apply = (patch.mergeInto s.filters).map fun filters =>
      (patch, { s with
        filters
        contentType := if patch.contentType = .nothing then s.contentType
          else patch.contentType }) := by
  have sets := Patch.filters_eq typed
  rw [Patch.mergeInto_eq typed]
  by_cases empty : patch.sets = []
  · have unnamed := contentType_of_sets_eq_nil empty
    simp only [apply, building, sets, empty, unnamed, bind, Except.bind, pure, Except.pure,
      List.isEmpty_nil, if_true]
    rfl
  · have kept : ¬ patch.sets.isEmpty = true := by rwa [List.isEmpty_iff]
    simp only [apply, building, sets, if_neg kept, bind, Except.bind, pure, Except.pure]
    cases s.filters.merge patch.sets <;> rfl

/-- Fragments with values of the form that their kinds ask for come to no patch if and only if
neither films nor shows are searched for, be it by the session or where a year stands. -/
theorem exists_error_buildPatch_iff (typed : ∀ f ∈ s.chips, f.isTyped = true) :
    (∃ e, s.buildPatch = .error e) ↔
      ¬ s.NamesMedium ∨ ∃ medium, s.contentType = .text medium.name ∧
        ∃ dated ∈ datedYears medium s.chips,
          dated.1 ≠ Medium.movie.name ∧ dated.1 ≠ Medium.tv.name := by
  by_cases named : s.NamesMedium
  · obtain ⟨search, searches⟩ := named
    have same {medium : Medium} (other : s.contentType = .text medium.name) : medium = search := by
      rw [searches] at other
      injection other with plain
      injection plain with name
      exact (Medium.name_inj.mp name).symm
    simp only [← Medium.ofName?_eq_none]
    rw [buildPatch_eq searches]
    rcases Patch.ofFragments_cases search typed with ⟨undated, failed⟩ | ⟨dated, merged⟩
    · exact iff_of_true ⟨_, failed⟩ (.inr ⟨search, searches, undated⟩)
    · rw [merged]
      refine iff_of_false (by rintro ⟨_, ⟨⟩⟩) ?_
      rintro (unnamed | ⟨medium, other, undated⟩)
      · exact unnamed ⟨search, searches⟩
      · rw [same other] at undated
        exact dated undated
  · obtain ⟨shown, refused⟩ := buildPatch_unknown_iff.mpr named
    exact iff_of_true ⟨_, refused⟩ (.inl named)

/-- A patch that fragments with values of the form that their kinds ask for come to. -/
theorem isTyped_of_buildPatch (typed : ∀ f ∈ s.chips, f.isTyped = true)
    (building : s.buildPatch = .ok patch) : patch.IsTyped := by
  have named : s.NamesMedium := by
    by_contra unnamed
    obtain ⟨shown, refused⟩ := buildPatch_unknown_iff.mpr unnamed
    rw [building] at refused
    cases refused
  obtain ⟨search, searches⟩ := named
  rw [buildPatch_eq searches] at building
  rw [Patch.eq_digest_of_ofFragments typed building]
  exact Patch.isTyped_digest search s.chips

/-- Applying in place: filters and content type are assigned one after the other. -/
def applyInPlace : ExceptT FilterError (StateM Session) Patch := do
  let patch ← MonadExcept.ofExcept (← get).buildPatch
  let changes ← MonadExcept.ofExcept patch.filters
  if changes.isEmpty then return patch
  let filters ← MonadExcept.ofExcept ((← get).filters.merge changes)
  modify fun s => { s with filters }
  if patch.contentType ≠ .nothing then
    modify fun s => { s with contentType := patch.contentType }
  return patch

/-- What a session becomes by something that may fail and then changes nothing. -/
def outcome (s : Session) :
    Except FilterError (Patch × Session) → Except FilterError Patch × Session
  | .ok (patch, next) => (.ok patch, next)
  | .error e => (.error e, s)

/-- The step: what may fail changes nothing, so failing at it leaves the session as it is. -/
theorem run_ofExcept_bind {α : Type} {x : Except FilterError α}
    {rest : α → ExceptT FilterError (StateM Session) Patch}
    {result : α → Except FilterError (Patch × Session)} (s : Session)
    (goesOn : ∀ a, (rest a).run.run s = s.outcome (result a)) :
    (MonadExcept.ofExcept x >>= rest).run.run s = s.outcome (x >>= result) := by
  cases x with
  | error e => rfl
  | ok a => exact goesOn a

/-- Nothing is assigned before the last thing that can fail. -/
theorem applyInPlace_eq (s : Session) : applyInPlace.run.run s = s.outcome s.apply := by
  refine run_ofExcept_bind s fun patch => run_ofExcept_bind s fun changes => ?_
  split
  next => rfl
  next =>
    refine run_ofExcept_bind s fun filters => ?_
    by_cases unnamed : patch.contentType = .nothing
    · simp only [unnamed, ne_eq, not_true_eq_false, if_false, if_true]
      rfl
    · simp only [unnamed, ne_eq, not_false_eq_true, if_false, if_true]
      rfl

/-- Applying succeeds if its patch can be built and merged. -/
theorem exists_of_apply (typed : ∀ f ∈ s.chips, f.isTyped = true)
    (applied : s.apply = .ok (patch, next)) :
    s.buildPatch = .ok patch ∧ patch.IsTyped ∧
      ∃ filters, patch.mergeInto s.filters = .ok filters ∧
        next = { s with
          filters
          contentType := if patch.contentType = .nothing then s.contentType
            else patch.contentType } := by
  obtain ⟨building, _⟩ := apply_eq applied
  have ofForm := isTyped_of_buildPatch typed building
  rw [apply_eq_map building ofForm] at applied
  obtain ⟨filters, merged, same⟩ := exists_of_map_ok applied
  cases same
  exact ⟨building, ofForm, filters, merged, rfl⟩

/-- Applying fails if and only if its patch cannot be built or cannot be merged. -/
theorem exists_error_apply_iff (typed : ∀ f ∈ s.chips, f.isTyped = true) :
    (∃ e, s.apply = .error e) ↔ (∃ e, s.buildPatch = .error e) ∨
      ∃ patch, s.buildPatch = .ok patch ∧ ∃ e, patch.mergeInto s.filters = .error e := by
  cases building : s.buildPatch with
  | error e =>
      have failed : s.apply = .error e := by
        rw [apply, building]
        rfl
      exact iff_of_true ⟨e, failed⟩ (.inl ⟨e, rfl⟩)
  | ok patch =>
      rw [apply_eq_map building (isTyped_of_buildPatch typed building)]
      cases merged : patch.mergeInto s.filters with
      | error e => exact iff_of_true ⟨e, rfl⟩ (.inr ⟨patch, rfl, e, merged⟩)
      | ok filters =>
          refine iff_of_false (by rintro ⟨_, ⟨⟩⟩) ?_
          rintro (⟨_, failed⟩ | ⟨_, same, _, failed⟩)
          · cases failed
          · cases same
            rw [merged] at failed
            cases failed

/-- Applying fragments with values of the form that their kinds ask for to JSON filters.  It fails
if and only if neither films nor shows are searched for, be it by the session or where a year
stands, or if the patch has a list for a key whose value says something but has no elements.  A
session that is changed in place is as it was if it fails.  If it succeeds, nothing but the filters
and the content type is changed: the patch is merged into the filters, which stay JSON, and the
content type is what the patch names, if it names anything. A patch that sets nothing changes
nothing. -/
theorem apply_atomic (typed : ∀ f ∈ s.chips, f.isTyped = true) (json : s.filters.IsJson) :
    ((∃ e, s.apply = .error e) ↔
      ¬ s.NamesMedium ∨
        (∃ medium, s.contentType = .text medium.name ∧
          ∃ dated ∈ datedYears medium s.chips,
            dated.1 ≠ Medium.movie.name ∧ dated.1 ≠ Medium.tv.name) ∨
        ∃ patch, s.buildPatch = .ok patch ∧
          ∃ field items, patch.setting? field = some (.list items) ∧
            ((Json.obj s.filters.toFields).field field.key).truthy = true ∧
            ((Json.obj s.filters.toFields).field field.key).hasElements = false) ∧
    (∀ e, s.apply = .error e → applyInPlace.run.run s = (.error e, s) ∧ s.run [.apply] = s) ∧
    ∀ patch next, s.apply = .ok (patch, next) →
      applyInPlace.run.run s = (.ok patch, next) ∧
        s.buildPatch = .ok patch ∧ patch.mergeInto s.filters = .ok next.filters ∧
        next = { s with
          filters := next.filters
          contentType := if patch.contentType = .nothing then s.contentType
            else patch.contentType } ∧
        (patch.filters = .ok [] → next = s) ∧ next.filters.IsJson := by
  refine ⟨?_, fun e failed => ⟨?_, ?_⟩, fun patch next applied => ?_⟩
  · rw [exists_error_apply_iff typed, exists_error_buildPatch_iff typed, or_assoc]
    refine or_congr_right (or_congr_right (exists_congr fun patch => ?_))
    refine and_congr_right fun building => ?_
    simp only [Patch.mergeInto_eq_error_iff_of_isJson (isTyped_of_buildPatch typed building) json,
      exists_eq_left]
  · rw [applyInPlace_eq, failed]
    rfl
  · rw [run_cons, step, failed]
    rfl
  · obtain ⟨building, ofForm, filters, merged, rfl⟩ := exists_of_apply typed applied
    refine ⟨?_, building, merged, rfl, ?_, Patch.isJson_of_mergeInto ofForm json merged⟩
    · rw [applyInPlace_eq, applied]
      rfl
    · intro empty
      have nothing : patch.sets = [] := by
        rw [Patch.filters_eq ofForm] at empty
        exact Except.ok.inj empty
      rw [Patch.mergeInto_eq ofForm, nothing] at merged
      cases merged
      rw [if_pos (contentType_of_sets_eq_nil nothing)]

/-- A table with one rule, for one provider. -/
def huluTable : Table where
  rules := [DefaultRules.naming "(hulu)" .hulu]
  faultless := by decide +kernel

/-- A provider is applied where a number stands for the providers. -/
theorem apply_atomic_number :
    ∃ s, Session.start huluTable (.str "movie") [("with_watch_providers", .int 5)] = .ok s ∧
      (∀ f ∈ (s.run [.parse (.str "hulu")]).chips, f.isTyped = true) ∧
      (s.run [.parse (.str "hulu")]).filters.IsJson ∧
      ∃ e, (s.run [.parse (.str "hulu")]).apply = .error e ∧
        applyInPlace.run.run (s.run [.parse (.str "hulu")]) =
          (.error e, s.run [.parse (.str "hulu")]) := by
  refine ⟨_, rfl, ?_⟩
  generalize named : Session.run _ [.parse (.str "hulu")] = s
  have typed : ∀ f ∈ s.chips, f.isTyped = true := by
    rw [← named]
    decide +kernel
  have json : s.filters.IsJson := by
    rw [← named]
    exact Filters.isJson_ofFields _
  obtain ⟨fails, kept, _⟩ := apply_atomic typed json
  have refused : ∃ patch, s.buildPatch = .ok patch ∧
      ∃ field items, patch.setting? field = some (.list items) ∧
        ((Json.obj s.filters.toFields).field field.key).truthy = true ∧
        ((Json.obj s.filters.toFields).field field.key).hasElements = false := by
    rw [← named]
    exact ⟨{ watchProviders := [.number 15] }, by decide +kernel, .watchProviders, _, rfl, rfl, rfl⟩
  obtain ⟨e, failed⟩ := fails.mpr (.inr (.inr refused))
  exact ⟨typed, json, e, failed, (kept e failed).1⟩

end Session

end FilmQuery
