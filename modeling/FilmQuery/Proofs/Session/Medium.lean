/-
# What a session searches for

A session starts with the name of a medium, and a change of what is searched for takes nothing
else.  The third way in is a patch: its content type is what a fragment has named, and it is adopted
as it is.  So a session searches for films or for shows, or else for something that a rule of its
table has named (`originates_run`).  Under a table whose rules name media only, films or shows it is
(`Makes.exists_medium`); any other table can leave a session with a content type for which no patch
is made.

The step is one operation (`Originates.step`), the run is any number of them (`run_preserves`).
-/
import FilmQuery.Proofs.Patch.Digest
import FilmQuery.Proofs.Rule.Values
import FilmQuery.Session

namespace FilmQuery

/-- What is made of two computations was made of a result of the first one. -/
theorem exists_of_bind {ε α β : Type} {x : Except ε α} {f : α → Except ε β} {result : β}
    (done : x >>= f = .ok result) : ∃ a, x = .ok a ∧ f a = .ok result := by
  cases x with
  | error e => cases done
  | ok a => exact ⟨a, rfl, done⟩

theorem exists_of_map_ok {ε α β : Type} {x : Except ε α} {f : α → β} {result : β}
    (done : x.map f = .ok result) : ∃ a, x = .ok a ∧ f a = result := by
  cases x with
  | error e => cases done
  | ok a => exact ⟨a, rfl, Except.ok.inj done⟩

theorem error_of_bind {ε α β : Type} {x : Except ε α} {f : α → Except ε β} {e : ε}
    (failed : x >>= f = .error e) : x = .error e ∨ ∃ a, x = .ok a ∧ f a = .error e := by
  cases x with
  | error other =>
      cases failed
      exact .inl rfl
  | ok a => exact .inr ⟨a, rfl, failed⟩

theorem error_of_map {ε α β : Type} {x : Except ε α} {f : α → β} {e : ε}
    (failed : x.map f = .error e) : x = .error e := by
  cases x with
  | error other =>
      cases failed
      rfl
  | ok a => cases failed

/-- What goes wrong where a side is missing or has no room has nothing to do with what is searched
for. -/
theorem misfit_ne_unknown {α : Type} (first second : Option α) (given : Value) :
    misfit first second ≠ .unknownContentType given := by
  unfold misfit
  split <;> exact FilterError.noConfusion

theorem mergeYears_ne_unknown (old new : Value) (given : Value) :
    mergeYears old new ≠ .error (.unknownContentType given) := by
  unfold mergeYears
  split <;> simp [misfit_ne_unknown]

theorem mergeRatings_ne_unknown (old new : Value) (given : Value) :
    mergeRatings old new ≠ .error (.unknownContentType given) := by
  unfold mergeRatings
  split <;> simp [misfit_ne_unknown]

namespace Patch

variable {patch next : Patch} {search : Medium} {value : Value} {f : Fragment}

@[simp]
theorem contentType_setDates (patch : Patch) (value : Value) (medium : Medium) :
    (patch.setDates value medium).contentType = patch.contentType := by
  cases medium <;> rfl

/-- Years say nothing about what is searched for. -/
theorem contentType_of_addYears (added : patch.addYears search value = .ok next) :
    next.contentType = patch.contentType := by
  obtain ⟨medium, _, rest⟩ := exists_of_bind added
  obtain ⟨dates, _, rest⟩ := exists_of_bind rest
  cases rest
  exact contentType_setDates patch dates medium

/-- Ratings say nothing about what is searched for. -/
theorem contentType_of_addRatings (added : patch.addRatings value = .ok next) :
    next.contentType = patch.contentType := by
  obtain ⟨ratings, _, rfl⟩ := exists_of_map_ok added
  rfl

theorem contentType_of_addProviders (added : patch.addProviders value = .ok next) :
    next.contentType = patch.contentType := by
  unfold addProviders at added
  split at added
  · cases added
    rfl
  · cases added

/-- What is searched for is overwritten by a fragment that names it, and by no other one. -/
theorem contentType_of_add (added : patch.add search f = .ok next) :
    next.contentType = patch.contentType ∨
      f.kind = .contentType ∧ next.contentType = f.value := by
  unfold add at added
  cases kind : f.kind <;> simp only [kind] at added
  case contentType =>
    cases added
    exact .inr ⟨rfl, rfl⟩
  case yearFrom | yearTo | yearExact | yearRange => exact .inl (contentType_of_addYears added)
  case ratingMin | ratingMax | ratingFloor | ratingRange =>
    exact .inl (contentType_of_addRatings added)
  case provider => exact .inl (contentType_of_addProviders added)
  case genre | genreExclude | country =>
    cases added
    exact .inl rfl

theorem contentType_of_addAll {fs : List Fragment} (added : addAll search patch fs = .ok next) :
    next.contentType = patch.contentType ∨
      ∃ f ∈ fs, f.kind = .contentType ∧ next.contentType = f.value := by
  induction fs generalizing patch with
  | nil =>
      cases added
      exact .inl rfl
  | cons f fs ih =>
      rw [addAll] at added
      cases first : patch.add search f with
      | error e =>
          rw [first] at added
          cases added
      | ok middle =>
          rw [first] at added
          rcases ih added with same | ⟨g, mem, named⟩
          · rcases contentType_of_add first with before | named
            · exact .inl (same.trans before)
            · exact .inr ⟨f, List.mem_cons_self, named.1, same.trans named.2⟩
          · exact .inr ⟨g, List.mem_cons_of_mem _ mem, named⟩

/-- A patch names what a fragment names, or nothing. -/
theorem contentType_of_ofFragments {fs : List Fragment} (made : ofFragments search fs = .ok patch) :
    patch.contentType = .nothing ∨
      ∃ f ∈ fs, f.kind = .contentType ∧ patch.contentType = f.value :=
  contentType_of_addAll made

theorem addYears_ne_unknown (patch : Patch) (search : Medium) (value : Value) (given : Value) :
    patch.addYears search value ≠ .error (.unknownContentType given) := by
  intro failed
  rcases error_of_bind failed with undated | ⟨medium, _, failed⟩
  · unfold datedMedium at undated
    split at undated
    · split at undated <;> cases undated
    · cases undated
  · rcases error_of_bind failed with unmerged | ⟨dates, _, failed⟩
    · exact mergeYears_ne_unknown _ _ given unmerged
    · cases failed

/-- Whatever goes wrong with a fragment, it is not that the content type is unknown. -/
theorem add_ne_unknown (patch : Patch) (search : Medium) (f : Fragment) (given : Value) :
    patch.add search f ≠ .error (.unknownContentType given) := by
  intro failed
  unfold add at failed
  cases kind : f.kind <;> simp only [kind] at failed
  case contentType | genre | genreExclude | country => cases failed
  case yearFrom | yearTo | yearExact | yearRange =>
    exact addYears_ne_unknown patch search f.value given failed
  case ratingMin | ratingMax | ratingFloor | ratingRange =>
    exact mergeRatings_ne_unknown _ _ given (error_of_map failed)
  case provider =>
    unfold addProviders at failed
    split at failed <;> cases failed

theorem addAll_ne_unknown (patch : Patch) (search : Medium) (fs : List Fragment) (given : Value) :
    addAll search patch fs ≠ .error (.unknownContentType given) := by
  induction fs generalizing patch with
  | nil =>
      intro same
      cases same
  | cons f fs ih =>
      rw [addAll]
      cases first : patch.add search f with
      | ok next => exact ih next
      | error e =>
          intro same
          cases same
          exact add_ne_unknown patch search f given first

end Patch

/-- A rule for what is searched for extracts nothing but names of media. -/
def Rule.NamesMedia (rule : Rule) : Prop :=
  rule.kind = .contentType → ∀ m value, rule.extract m = .ok value → value ≠ .nothing →
    ∃ medium : Medium, value = .text medium.name

/-- The rules of record name films and shows only. -/
theorem DefaultRules.namesMedia : ∀ rule ∈ all, rule.NamesMedia := by
  intro rule mem content m value extracted _
  have ofKind := isOfKind rule mem
  have none : rule.extractor = none := by
    rw [ofKind.extractor, content]
    rfl
  have allows := ofKind.fixed none
  rw [content] at allows
  rw [Rule.extract, none] at extracted
  cases extracted
  exact allows

/-- A fragment has the kind of a rule and says what the rule has extracted. -/
theorem exists_rule_of_mem_readRules {run index : Nat} {rules : List Rule} {text : PlacedText}
    {f : Fragment} (mem : f ∈ (readRules run index rules text).fragments) :
    ∃ rule ∈ rules, ∃ m, f.kind = rule.kind ∧ rule.extract m = .ok f.value ∧
      f.value ≠ .nothing := by
  obtain ⟨rule, among, _, _, m, made⟩ := exists_claim_of_mem_readRules mem
  obtain ⟨kind, extracted, something, _⟩ := Rule.said_of_claim? made
  exact ⟨rule, among, m, kind, extracted, something⟩

namespace Table

variable {table : Table}

/-- A fragment that a table makes of some query, in some reading. -/
def Makes (table : Table) (f : Fragment) : Prop := ∃ run query, f ∈ table.fragments run query

/-- Under a table of rules that name media, every fragment that names what is searched for names a
medium. -/
theorem Makes.exists_medium {f : Fragment} (made : table.Makes f)
    (media : ∀ rule ∈ table.rules, rule.NamesMedia) (content : f.kind = .contentType) :
    ∃ medium : Medium, f.value = .text medium.name := by
  obtain ⟨run, query, mem⟩ := made
  unfold Table.fragments at mem
  split at mem
  next text =>
    unfold Table.read at mem
    split at mem
    · cases mem
    · obtain ⟨rule, among, m, kind, extracted, something⟩ := exists_rule_of_mem_readRules mem
      exact media rule among (kind ▸ content) m f.value extracted something
  next => cases mem

end Table

namespace Session

variable {s next : Session}

theorem run_append (s : Session) (ops more : List SessionOp) :
    s.run (ops ++ more) = (s.run ops).run more := List.foldl_append

theorem run_cons (s : Session) (op : SessionOp) (ops : List SessionOp) :
    s.run (op :: ops) =
      (match s.step op with | .ok next => next | .error _ => s).run ops := rfl

/-- What every operation preserves holds after all of them. -/
theorem run_preserves {P : Session → Prop} {ops : List SessionOp}
    (preserves : ∀ op ∈ ops, ∀ s next, P s → s.step op = .ok next → P next) (holds : P s) :
    P (s.run ops) := by
  induction ops generalizing s with
  | nil => exact holds
  | cons op ops ih =>
      have later := fun op mem => preserves op (List.mem_cons_of_mem _ mem)
      rw [run_cons]
      cases stepped : s.step op with
      | ok next => exact ih later (preserves op List.mem_cons_self s next holds stepped)
      | error e => exact ih later holds

/-- Films or shows are searched for. -/
def NamesMedium (s : Session) : Prop := ∃ medium : Medium, s.contentType = .text medium.name

/-- Where the fragments and the content type of a session come from: the fragments were made by its
table, and the content type is a medium or was named by a fragment that its table has made. -/
structure Originates (table : Table) (s : Session) : Prop where
  ofTable : s.table = table
  chips : ∀ f ∈ s.chips, table.Makes f
  contentType : s.NamesMedium ∨
    ∃ f, table.Makes f ∧ f.kind = .contentType ∧ s.contentType = f.value

theorem originates_start {table : Table} {contentType : Json} {fields : Json.Fields}
    (started : Session.start table contentType fields = .ok s) : Originates table s := by
  obtain ⟨medium, _, rfl⟩ := exists_of_map_ok started
  exact ⟨rfl, by simp, .inl ⟨medium, rfl⟩⟩

/-- Applying leaves everything as it is but the filters and the content type, which is the one that
the patch names, if it names one. -/
theorem apply_eq {patch : Patch} (applied : s.apply = .ok (patch, next)) :
    s.buildPatch = .ok patch ∧
      ∃ filters contentType, next = { s with filters, contentType } ∧
        (contentType = s.contentType ∨
          contentType = patch.contentType ∧ contentType ≠ .nothing) := by
  obtain ⟨built, building, rest⟩ := exists_of_bind applied
  obtain ⟨changes, _, rest⟩ := exists_of_bind rest
  split at rest
  · cases rest
    exact ⟨building, s.filters, s.contentType, rfl, .inl rfl⟩
  · obtain ⟨filters, _, rest⟩ := exists_of_bind rest
    cases rest
    refine ⟨building, filters, _, rfl, ?_⟩
    split
    · exact .inl rfl
    next something => exact .inr ⟨rfl, something⟩

/-- The step: fragments come from the table, and the content type from outside or from one of
them. -/
theorem Originates.step {table : Table} {op : SessionOp} (holds : Originates table s)
    (stepped : s.step op = .ok next) : Originates table next := by
  cases op with
  | parse query =>
      cases stepped
      refine ⟨holds.ofTable, ?_, holds.contentType⟩
      intro f mem
      rw [← holds.ofTable]
      exact ⟨s.readings, _, mem⟩
  | remove id =>
      cases stepped
      exact ⟨holds.ofTable, fun f mem => holds.chips f (List.mem_of_mem_filter mem),
        holds.contentType⟩
  | clear =>
      cases stepped
      exact ⟨holds.ofTable, by simp [clear], holds.contentType⟩
  | setContentType value =>
      obtain ⟨medium, _, rfl⟩ := exists_of_map_ok stepped
      exact ⟨holds.ofTable, holds.chips, .inl ⟨medium, rfl⟩⟩
  | buildPatch =>
      obtain ⟨_, _, rfl⟩ := exists_of_map_ok stepped
      exact holds
  | apply =>
      obtain ⟨⟨patch, _⟩, applied, rfl⟩ := exists_of_map_ok stepped
      obtain ⟨building, filters, contentType, rfl, adopted⟩ := apply_eq applied
      refine ⟨holds.ofTable, holds.chips, ?_⟩
      rcases adopted with rfl | ⟨same, something⟩
      · exact holds.contentType
      · obtain ⟨medium, _, made⟩ := exists_of_bind building
        rcases Patch.contentType_of_ofFragments made with nothing | ⟨f, mem, content, said⟩
        · exact absurd (same.trans nothing) something
        · exact .inr ⟨f, holds.chips f mem, content, same.trans said⟩
  | reset =>
      cases stepped
      exact ⟨holds.ofTable, holds.chips, holds.contentType⟩

/-- The run: whatever is asked of a session, it searches for films or for shows, or else for
something that a fragment of its table has named. -/
theorem originates_run {table : Table} {contentType : Json} {fields : Json.Fields}
    (started : Session.start table contentType fields = .ok s) (ops : List SessionOp) :
    Originates table (s.run ops) :=
  run_preserves (fun _ _ _ _ holds stepped => holds.step stepped) (originates_start started)

/-- Where a medium is searched for, the patch is that of the fragments that are left. -/
theorem buildPatch_eq {medium : Medium} (named : s.contentType = .text medium.name) :
    s.buildPatch = Patch.ofFragments medium s.chips := by
  have found : Medium.ofValue s.contentType = .ok medium := by
    rw [named]
    cases medium <;> rfl
  rw [buildPatch, found]
  rfl

/-- A patch is refused for its content type if and only if the content type names no medium. -/
theorem buildPatch_unknown_iff :
    (∃ given, s.buildPatch = .error (.unknownContentType given)) ↔ ¬ s.NamesMedium := by
  constructor
  · rintro ⟨given, refused⟩ ⟨medium, named⟩
    rw [buildPatch_eq named] at refused
    exact Patch.addAll_ne_unknown _ medium s.chips given refused
  · intro unnamed
    refine ⟨s.contentType, ?_⟩
    have none : Medium.ofValue? s.contentType = none := by
      rw [Option.eq_none_iff_forall_ne_some]
      intro medium found
      unfold Medium.ofValue? at found
      split at found
      next name value => exact unnamed ⟨medium, by rw [value, Medium.ofName?_eq_some.mp found]⟩
      next => cases found
    rw [buildPatch, Medium.ofValue, none]
    rfl

/-- Under a table of rules that name media, films or shows are searched for whatever is asked of the
session, so no patch is refused for its content type. -/
theorem namesMedium_run {table : Table} (media : ∀ rule ∈ table.rules, rule.NamesMedia)
    {contentType : Json} {fields : Json.Fields}
    (started : Session.start table contentType fields = .ok s) (ops : List SessionOp) :
    (s.run ops).NamesMedium ∧
      ∀ given, (s.run ops).buildPatch ≠ .error (.unknownContentType given) := by
  have named : (s.run ops).NamesMedium := by
    rcases (originates_run started ops).contentType with named | ⟨f, made, content, said⟩
    · exact named
    · obtain ⟨medium, value⟩ := made.exists_medium media content
      exact ⟨medium, said.trans value⟩
  exact ⟨named, fun given refused => buildPatch_unknown_iff.mp ⟨given, refused⟩ named⟩

/-- The rules of record never lose track of what is searched for. -/
theorem namesMedium_run_shows : ∃ s, Session.start Table.default (.str "tv") [] = .ok s ∧
    (s.run [.parse (.str "movies"), .apply]).NamesMedium ∧
      ∀ given, (s.run [.parse (.str "movies"), .apply]).buildPatch ≠
        .error (.unknownContentType given) := by
  refine ⟨_, rfl, ?_⟩
  have started : Session.start Table.default (.str "tv") [] = .ok _ := rfl
  exact namesMedium_run DefaultRules.namesMedia started _

/-- A table with one rule, which names what is neither films nor shows. -/
def animeTable : Table where
  rules := [DefaultRules.meaning "anime" .contentType (.text "anime")]
  faultless := by decide +kernel

/-- Once its patch was applied, no other patch is made. -/
theorem buildPatch_anime : ∃ s, Session.start animeTable (.str "movie") [] = .ok s ∧
    ¬ (s.run [.parse (.str "anime"), .apply]).NamesMedium ∧
    (s.run [.parse (.str "anime"), .apply]).buildPatch =
      .error (.unknownContentType (.text "anime")) := by
  refine ⟨_, rfl, ?_, by decide +kernel⟩
  rintro ⟨medium, named⟩
  cases medium <;> revert named <;> decide +kernel

end Session

end FilmQuery
