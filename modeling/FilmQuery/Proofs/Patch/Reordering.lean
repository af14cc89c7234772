/-
# Fragments in another order

Kinds fall into groups (`Kind.group`), and every field of a patch is changed by the kinds of one
group only.  So fragments can change places as long as those of one group stay in their order
(`KeepsOrder`): the same patch comes out, or the merging stops for the same reason
(`Patch.ofFragments_of_keepsOrder`).

The reason includes what was searched for where the merging stops, so what is compared is the
merging that notes it (`Patch.ofFragmentsNoting`).  A year and a content type are of one group:
which dates the year goes to depends on whether it stands before the content type or behind it.
-/
import FilmQuery.Proofs.Patch.Writers

namespace FilmQuery

/-- Groups of kinds that have nothing to do with each other in a patch. -/
inductive KindGroup where
  | searched
  | ratings
  | providers
  | genres
  | exclusions
  | countries
  deriving DecidableEq, Repr

/-- The group of a kind. Years belong to the content types, which decide where they go. -/
def Kind.group : Kind → KindGroup
  | .contentType | .yearFrom | .yearTo | .yearExact | .yearRange => .searched
  | .ratingMin | .ratingMax | .ratingFloor | .ratingRange => .ratings
  | .provider => .providers
  | .genre => .genres
  | .genreExclude => .exclusions
  | .country => .countries

/-- The group of the kinds that can change a field. -/
def Field.group : Field → KindGroup
  | .contentType | .primaryReleaseDate | .firstAirDate => .searched
  | .voteAverage => .ratings
  | .watchProviders => .providers
  | .genres => .genres
  | .withoutGenres => .exclusions
  | .watchRegion => .countries

theorem Kind.group_of_writes {kind : Kind} {field : Field} (writes : field ∈ kind.writes) :
    kind.group = field.group := by
  cases kind <;> cases field <;> first | rfl | exact absurd writes (by decide)

/-- The fragments of a group, in their order. -/
def inGroup (group : KindGroup) (fs : List Fragment) : List Fragment :=
  fs.filter (·.kind.group = group)

/-- Fragments in another order in which those of one group come in the order in which they were. -/
structure KeepsOrder (xs ys : List Fragment) : Prop where
  perm : ys.Perm xs
  within : ∀ group, inGroup group ys = inGroup group xs

namespace KeepsOrder

variable {search : Medium} {xs ys : List Fragment}

theorem datedYears_eq (order : KeepsOrder xs ys) (search : Medium) :
    datedYears search ys = datedYears search xs := by
  have ofGroup (fs : List Fragment) :
      datedYears search (inGroup .searched fs) = datedYears search fs := by
    refine datedYears_filter fun f _ decides => decide_eq_true ?_
    rcases decides with content | year
    · rw [content]
      rfl
    · cases kind : f.kind <;> rw [kind] at year <;> first | rfl | exact absurd year (by decide)
  rw [← ofGroup ys, ← ofGroup xs, order.within]

theorem digest_eq (order : KeepsOrder xs ys) (search : Medium) :
    Patch.digest search ys = Patch.digest search xs := by
  refine Patch.eq_of_setting?_eq fun field => ?_
  have ofGroup (fs : List Fragment) :
      (Patch.digest search (inGroup field.group fs)).setting? field =
        (Patch.digest search fs).setting? field :=
    Patch.setting?_digest_filter fun f _ writes => decide_eq_true (Kind.group_of_writes writes)
  rw [← ofGroup ys, ← ofGroup xs, order.within]

end KeepsOrder

namespace Patch

variable {xs ys : List Fragment}

/-- Fragments make the same patch in every order that keeps the order inside the groups, whatever is
searched for. If they make none, it is for the same reason, and if that is a year without dates, for
the same content type. -/
theorem ofFragments_of_keepsOrder (typed : ∀ f ∈ xs, f.isTyped = true) (order : KeepsOrder xs ys)
    (current : Value) :
    (Medium.ofValue current >>= fun search => ofFragments search ys) =
        (Medium.ofValue current >>= fun search => ofFragments search xs) ∧
      ∀ search, ofFragmentsNoting search ys = ofFragmentsNoting search xs := by
  have typedAgain : ∀ f ∈ ys, f.isTyped = true :=
    fun f mem => typed f (order.perm.mem_iff.mp mem)
  have noting (search : Medium) : ofFragmentsNoting search ys = ofFragmentsNoting search xs := by
    rw [ofFragmentsNoting_eq search typedAgain, ofFragmentsNoting_eq search typed,
      order.datedYears_eq, order.digest_eq]
  refine ⟨?_, noting⟩
  simp only [ofFragments_eq_mapError, noting]

/-- A content type without dates, a year behind it, and a genre. -/
def animeSinceComedy : List Fragment :=
  [{ id := .named "anime", kind := .contentType, value := .text "anime",
      label := "Anime", source := "anime" },
    { id := .named "since", kind := .yearFrom, value := .years ⟨some "2010", none⟩,
      label := "Since: 2010", source := "since 2010" },
    { id := .named "comedy", kind := .genre, value := .number 35,
      label := "Genre: Comedy", source := "comedy" }]

/-- The genre may come first; the year still asks for the dates of the same content type. -/
theorem ofFragments_of_keepsOrder_anime :
    let comedyFirst := animeSinceComedy.rotate 2
    (∀ f ∈ animeSinceComedy, f.isTyped = true) ∧ KeepsOrder animeSinceComedy comedyFirst ∧
      (Medium.ofValue (.text "tv") >>= fun search => ofFragments search comedyFirst) =
        .error .noDates ∧
      ofFragmentsNoting .tv comedyFirst = .error (.noDates, .text "anime") := by
  have typed : ∀ f ∈ animeSinceComedy, f.isTyped = true := by decide
  have order : KeepsOrder animeSinceComedy (animeSinceComedy.rotate 2) :=
    ⟨by decide, by rintro (_ | _) <;> rfl⟩
  obtain ⟨outcome, noted⟩ := ofFragments_of_keepsOrder typed order (.text "tv")
  exact ⟨typed, order, outcome.trans rfl, (noted .tv).trans rfl⟩

end Patch

end FilmQuery
