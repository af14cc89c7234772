/-
# Which fragments a field depends on

A field of the patch depends on the fragments whose kinds can change it (`Kind.writes`), and on no
others: leaving other fragments out leaves the field as it is (`Patch.setting?_digest_filter`).  A
content type changes the dates as well, because it decides which of them the years behind it go to.

A year is read with the name of what is searched for where it stands (`inContext`).  Fragments can
be left out without changing any such name as long as no content type is among them
(`inContext_filter`).
-/
import FilmQuery.Proofs.Patch.Merging

namespace FilmQuery

/-- The fields that a fragment of a kind can change. -/
def Kind.writes : Kind → List Field
  | .contentType => [.contentType, .primaryReleaseDate, .firstAirDate]
  | .yearFrom | .yearTo | .yearExact | .yearRange => [.primaryReleaseDate, .firstAirDate]
  | .ratingMin | .ratingMax | .ratingFloor | .ratingRange => [.voteAverage]
  | .provider => [.watchProviders]
  | .genre => [.genres]
  | .genreExclude => [.withoutGenres]
  | .country => [.watchRegion]

section Lists

variable {α β : Type} {search : Medium} {fs : List Fragment} {keep : Fragment → Bool}

theorem said_filter {of : Kind → Bool} {read : Value → Option α}
    (kept : ∀ f ∈ fs, of f.kind = true → keep f = true) :
    said of read (fs.filter keep) = said of read fs := by
  rw [said, List.filterMap_filter]
  refine List.filterMap_congr fun f mem => ?_
  by_cases own : of f.kind = true
  · rw [kept f mem own, if_pos rfl]
  · rw [if_neg own, ite_self]

theorem searchedName_filter (kept : ∀ f ∈ fs, f.kind = .contentType → keep f = true) :
    searchedName search (fs.filter keep) = searchedName search fs := by
  rw [searchedName, said_filter fun f mem content => kept f mem (of_decide_eq_true content)]
  rfl

/-- Without some fragments that are no content types the others give what they gave. -/
theorem inContext_filter (read : String → Fragment → Option β)
    (kept : ∀ f ∈ fs, f.kind = .contentType → keep f = true) :
    inContext search read (fs.filter keep) =
      inContext search (fun searched f => if keep f then read searched f else none) fs := by
  induction fs using List.reverseRecOn with
  | nil => rfl
  | append_singleton fs f ih =>
      have before : ∀ g ∈ fs, g.kind = .contentType → keep g = true :=
        fun g mem => kept g (List.mem_append_left _ mem)
      rw [List.filter_append, inContext_concat, ← ih before]
      by_cases stays : keep f = true
      · rw [List.filter_singleton, stays, if_pos rfl, cond_true, inContext_concat,
          searchedName_filter before]
      · rw [List.filter_singleton, Bool.eq_false_iff.mpr stays]
        simp

/-- The dated years are a matter of the years and the content types. -/
theorem datedYears_filter
    (kept : ∀ f ∈ fs, f.kind = .contentType ∨ f.kind.isYear = true → keep f = true) :
    datedYears search (fs.filter keep) = datedYears search fs := by
  rw [datedYears_eq_inContext, inContext_filter _ fun f mem content => kept f mem (.inl content),
    datedYears_eq_inContext, inContext, inContext]
  refine List.filterMap_congr fun x mem => ?_
  obtain ⟨f, i⟩ := x
  dsimp only
  by_cases year : f.kind.isYear = true
  · rw [kept f (List.fst_mem_of_mem_zipIdx mem) (.inr year), if_pos rfl]
  · rw [if_neg year, Option.map_none, ite_self]

end Lists

namespace Setting

theorem ofValue?_inj {value other : Value} : ofValue? value = ofValue? other ↔ value = other := by
  unfold ofValue?
  split <;> split <;> simp_all [eq_comm]

theorem ofItems?_inj {items others : List Value} :
    ofItems? items = ofItems? others ↔ items = others := by
  unfold ofItems?
  split <;> split <;> simp_all [eq_comm]

end Setting

namespace Patch

variable {p q : Patch} {search : Medium} {fs : List Fragment} {keep : Fragment → Bool}

/-- Patches that set every field alike are the same. -/
theorem eq_of_setting?_eq (same : ∀ field, p.setting? field = q.setting? field) : p = q := by
  have contentType := Setting.ofValue?_inj.mp (same .contentType)
  have primaryReleaseDate := Setting.ofValue?_inj.mp (same .primaryReleaseDate)
  have firstAirDate := Setting.ofValue?_inj.mp (same .firstAirDate)
  have voteAverage := Setting.ofValue?_inj.mp (same .voteAverage)
  have watchProviders := Setting.ofItems?_inj.mp (same .watchProviders)
  have genres := Setting.ofItems?_inj.mp (same .genres)
  have withoutGenres := Setting.ofItems?_inj.mp (same .withoutGenres)
  have watchRegion := Setting.ofValue?_inj.mp (same .watchRegion)
  cases p
  cases q
  simp_all

/-- Leaving fragments out that cannot change a field leaves the field as it is. -/
theorem setting?_digest_filter {field : Field}
    (kept : ∀ f ∈ fs, field ∈ f.kind.writes → keep f = true) :
    (digest search (fs.filter keep)).setting? field = (digest search fs).setting? field := by
  have ofKind {kind : Kind} (writes : field ∈ kind.writes) :
      ∀ f ∈ fs, decide (f.kind = kind) = true → keep f = true :=
    fun f mem own => kept f mem (of_decide_eq_true own ▸ writes)
  have dated (content : field ∈ Kind.contentType.writes)
      (years : ∀ kind : Kind, kind.isYear = true → field ∈ kind.writes) :
      datedYears search (fs.filter keep) = datedYears search fs := by
    refine datedYears_filter fun f mem writes => kept f mem ?_
    rcases writes with named | year
    · exact named ▸ content
    · exact years f.kind year
  cases field with
  | contentType => exact congrArg (Setting.ofValue? ∘ lastWord) (said_filter (ofKind (by decide)))
  | primaryReleaseDate =>
      have same := dated (by decide) (by rintro (_ | _) <;> decide)
      exact congrArg (Setting.ofValue? ∘ YearRange.together ∘ yearsOf .movie) same
  | firstAirDate =>
      have same := dated (by decide) (by rintro (_ | _) <;> decide)
      exact congrArg (Setting.ofValue? ∘ YearRange.together ∘ yearsOf .tv) same
  | voteAverage =>
      have writes : ∀ kind : Kind, kind.isRating = true → Field.voteAverage ∈ kind.writes := by
        rintro (_ | _) <;> decide
      exact congrArg (Setting.ofValue? ∘ RatingRange.together)
        (said_filter fun f mem rating => kept f mem (writes f.kind rating))
  | watchProviders =>
      exact congrArg (Setting.ofItems? ∘ distinctNumbers ∘ List.flatten)
        (said_filter (ofKind (by decide)))
  | genres => exact congrArg (Setting.ofItems? ∘ distinctNumbers) (said_filter (ofKind (by decide)))
  | withoutGenres =>
      exact congrArg (Setting.ofItems? ∘ distinctNumbers) (said_filter (ofKind (by decide)))
  | watchRegion => exact congrArg (Setting.ofValue? ∘ lastWord) (said_filter (ofKind (by decide)))

end Patch

end FilmQuery
