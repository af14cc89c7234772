/-
# Fragments listed line by line

The listing of fragments has a line for each of them, unless a fragment brings a line of its own:
its label or the phrase behind it has a newline (`isListed_listing_iff`).  Years, ratings and the
words of a table are shown on one line.  But labels of providers and genres repeat what was typed,
and a newline is a blank inside of such a name as any other; so does every phrase that is shown.
-/
import FilmQuery.Listing
import FilmQuery.Proofs.Query.Partition
import FilmQuery.Proofs.Query.Recognition
import FilmQuery.Proofs.Rule.Labels
import FilmQuery.Proofs.Text.Lines

namespace FilmQuery

open Number (Binary64 decimalDigits)
open Text (IsLine isLine_append splitAtNewlines trim)

/-- The beginning of the line of a fragment: its number and its label. -/
def fragmentHeading (number : Nat) (f : Fragment) : List Char :=
  decimalDigits number ++ ". ".toList ++ f.label.toList

/-- Lines list fragments if there is one line for each fragment, which begins with the number of the
fragment and its label. -/
def IsListed (fragments : List Fragment) (lines : List (List Char)) : Prop :=
  lines.length = fragments.length ∧
    ∀ i f, fragments[i]? = some f →
      ∃ line, lines[i]? = some line ∧ fragmentHeading (i + 1) f <+: line

/-- Whether labels of a kind repeat what was typed. -/
def Kind.showsPhrase : Kind → Bool
  | .provider | .genre | .genreExclude => true
  | _ => false

/-- Whether nothing that a listing shows of a fragment has a newline. -/
def Fragment.IsOnLine (showSource : Bool) (f : Fragment) : Prop :=
  IsLine f.label.toList ∧ (showSource = true → IsLine (trim f.source.toList))

section Listing

variable {showSource : Bool} {fragments : List Fragment}

theorem toList_fragmentLine (number : Nat) (f : Fragment) :
    (fragmentLine showSource number f).toList =
      fragmentHeading number f ++
        if showSource then "  <- \"".toList ++ trim f.source.toList ++ ['"'] else [] := by
  cases showSource <;> simp [fragmentLine, fragmentHeading, Text.trimString]

theorem isLine_fragmentLine (number : Nat) (f : Fragment) :
    IsLine (fragmentLine showSource number f).toList ↔ f.IsOnLine showSource := by
  have digits := Number.isLine_decimalDigits number
  rw [toList_fragmentLine]
  cases showSource <;> simp [fragmentHeading, Fragment.IsOnLine, digits]

/-- The pieces of a listing are those of its lines, one line after the other. -/
theorem splitAtNewlines_fragmentListing (some : fragments ≠ []) :
    splitAtNewlines (fragmentListing showSource fragments).toList =
      ((fragmentLines showSource fragments).map String.toList).flatMap splitAtNewlines := by
  have lines : (fragmentLines showSource fragments).map String.toList ≠ [] := by
    simpa [fragmentLines, List.zipIdx_eq_nil_iff] using some
  rw [fragmentListing, if_neg (by simpa using some), String.toList_intercalate]
  exact Text.splitAtNewlines_intercalate lines

theorem isLine_fragmentLines_iff :
    (∀ text ∈ (fragmentLines showSource fragments).map String.toList, IsLine text) ↔
      ∀ f ∈ fragments, f.IsOnLine showSource := by
  constructor
  · intro lines f mem
    obtain ⟨i, here⟩ := List.mem_iff_getElem?.mp mem
    refine (isLine_fragmentLine (i + 1) f).mp (lines _ (List.mem_map_of_mem ?_))
    exact List.mem_map.mpr ⟨(f, i), List.mem_zipIdx_iff_getElem?.mpr here, rfl⟩
  · intro onLine text mem
    simp only [fragmentLines, List.map_map, List.mem_map] at mem
    obtain ⟨⟨f, i⟩, inList, rfl⟩ := mem
    exact (isLine_fragmentLine (i + 1) f).mpr
      (onLine f (List.mem_of_getElem? (List.mem_zipIdx_iff_getElem?.mp inList)))

/-- A listing has one line for each fragment exactly if nothing that it shows has a newline. -/
theorem isListed_listing_iff (some : fragments ≠ []) :
    IsListed fragments (splitAtNewlines (fragmentListing showSource fragments).toList) ↔
      ∀ f ∈ fragments, f.IsOnLine showSource := by
  have length : ((fragmentLines showSource fragments).map String.toList).length =
      fragments.length := by
    simp [fragmentLines]
  rw [splitAtNewlines_fragmentListing some, ← isLine_fragmentLines_iff,
    ← Text.length_flatMap_splitAtNewlines_eq_iff, length]
  refine ⟨And.left, fun same => ⟨same, fun i f here => ?_⟩⟩
  rw [← length, Text.length_flatMap_splitAtNewlines_eq_iff] at same
  rw [Text.flatMap_splitAtNewlines same]
  refine ⟨(fragmentLine showSource (i + 1) f).toList, by simp [fragmentLines, here], ?_⟩
  rw [toList_fragmentLine]
  exact List.prefix_append _ _

end Listing

/-- A year is on one line. -/
theorem IsYear.isLine {year : String} (typed : IsYear year) : IsLine year.toList := fun mem =>
  absurd (typed.2 _ mem) (by decide)

theorem isLine_ratingText (x : Binary64) : IsLine (ratingText x).toList := by
  unfold ratingText
  split
  · rw [String.toList_ofList]
    exact Json.isLine_intText _
  · exact Number.isLine_significantText 6 x

namespace Rule.Reads

variable {f : Fragment} {rule : Rule} {m : Occurrence}

theorem isLine_label_of_year (reads : rule.Reads m f) (year : f.kind.isYear = true) :
    IsLine f.label.toList := by
  have labelled := reads.labelled
  cases kind : f.kind with
  | yearFrom =>
      obtain ⟨first, value⟩ : ∃ first, f.value = .years ⟨some first, none⟩ :=
        reads.exists_of_ofKind (by rw [kind]; rfl) rfl rfl
      have line := ((reads.isSound_of_years year value).start first rfl).isLine
      rw [kind, value] at labelled
      have shown : "Since: " ++ first = f.label := Except.ok.inj labelled
      simp [← shown, line]
  | yearTo =>
      obtain ⟨last, value⟩ : ∃ last, f.value = .years ⟨none, some last⟩ :=
        reads.exists_of_ofKind (by rw [kind]; rfl) rfl rfl
      have line := ((reads.isSound_of_years year value).stop last rfl).isLine
      rw [kind, value] at labelled
      have shown : "Until: " ++ last = f.label := Except.ok.inj labelled
      simp [← shown, line]
  | yearExact =>
      obtain ⟨only, value⟩ : ∃ only, f.value = .years ⟨some only, some only⟩ :=
        reads.exists_of_ofKind (by rw [kind]; rfl) rfl rfl
      have line := ((reads.isSound_of_years year value).start only rfl).isLine
      rw [kind, value] at labelled
      have shown : "Year: " ++ only = f.label := Except.ok.inj labelled
      simp [← shown, line]
  | yearRange =>
      obtain ⟨⟨first, last⟩, value, _⟩ := reads.exists_years kind
      have sound := reads.isSound_of_years year value
      have line := (sound.start first rfl).isLine
      have line' := (sound.stop last rfl).isLine
      rw [kind, value] at labelled
      have shown : "Years: " ++ first ++ "-" ++ last = f.label := Except.ok.inj labelled
      simp [← shown, line, line']
  | _ =>
      rw [kind] at year
      cases year

theorem isLine_label_of_rating (reads : rule.Reads m f) (rating : f.kind.isRating = true) :
    IsLine f.label.toList := by
  have labelled := reads.labelled
  cases kind : f.kind with
  | ratingMin | ratingFloor =>
      obtain ⟨low, value⟩ : ∃ low, f.value = .ratings ⟨some low, none⟩ :=
        reads.exists_of_ofKind (by rw [kind]; rfl) rfl rfl
      rw [kind, value] at labelled
      have shown : "Rating: " ++ ratingText low ++ "+" = f.label := Except.ok.inj labelled
      simp [← shown, isLine_ratingText]
  | ratingMax =>
      obtain ⟨high, value⟩ : ∃ high, f.value = .ratings ⟨none, some high⟩ :=
        reads.exists_of_ofKind (by rw [kind]; rfl) rfl rfl
      rw [kind, value] at labelled
      have shown : "Rating: <" ++ ratingText high = f.label := Except.ok.inj labelled
      simp [← shown, isLine_ratingText]
  | ratingRange =>
      obtain ⟨⟨low, high⟩, value⟩ := reads.exists_ratings kind
      rw [kind, value] at labelled
      have shown : "Rating: " ++ ratingText low ++ "-" ++ ratingText high = f.label :=
        Except.ok.inj labelled
      simp [← shown, isLine_ratingText]
  | _ =>
      rw [kind] at rating
      cases rating

/-- A label that repeats nothing is on one line. -/
theorem isLine_label (reads : rule.Reads m f) (own : f.kind.showsPhrase = false) :
    IsLine f.label.toList := by
  have labelled := reads.labelled
  have allowed := reads.allows
  cases kind : f.kind with
  | contentType =>
      rw [kind] at labelled
      rw [← Except.ok.inj labelled]
      split <;> decide
  | country =>
      rw [kind] at labelled allowed
      obtain ⟨code, region, value⟩ := allowed
      have line : ∀ code ∈ regionCodes, IsLine code.toList := by decide
      rw [value] at labelled
      have shown : "Region: " ++ code = f.label := Except.ok.inj labelled
      simp [← shown, line code region]
  | yearFrom | yearTo | yearExact | yearRange =>
      exact reads.isLine_label_of_year (by rw [kind]; rfl)
  | ratingMin | ratingMax | ratingFloor | ratingRange =>
      exact reads.isLine_label_of_rating (by rw [kind]; rfl)
  | provider | genre | genreExclude =>
      rw [kind] at own
      cases own

/-- A label has a newline only if the phrase has one. -/
theorem isLine_label_of_source (reads : rule.Reads m f) (line : IsLine f.source.toList) :
    IsLine f.label.toList := by
  -- What the label shows of a name is part of the phrase.
  have named (title : String) (isLine : IsLine title.toList)
      (labelOf : label f.kind f.value m = (shownGroup m 1).map (title ++ ·))
      (always : rule.pattern.alwaysMeets 1 = true) : IsLine f.label.toList := by
    obtain ⟨met, _, noted, shown⟩ := reads.exists_met labelOf always
    obtain ⟨chars, found⟩ := reads.found
    rw [DefaultRules.find_eq_occurrences reads.mem] at found
    have inside := Pattern.infix_of_mem_occurrences found _ noted
    rw [reads.source, String.toList_ofList] at line
    rw [shown, String.toList_append, String.toList_ofList, isLine_append]
    exact ⟨isLine, line.of_subset inside.subset⟩
  have shows := DefaultRules.showsGroup_of_mem reads.mem
  rw [reads.kind] at shows
  cases kind : f.kind with
  | provider =>
      rw [kind, DefaultRules.showsGroup, Bool.and_eq_true] at shows
      exact named "On: " (by decide) (by rw [kind]; rfl) shows.1
  | genreExclude =>
      rw [kind, DefaultRules.showsGroup, Bool.and_eq_true] at shows
      exact named "Exclude: " (by decide) (by rw [kind]; rfl) shows.1
  | genre =>
      rw [reads.label_of_genre kind, String.toList_append, isLine_append]
      exact ⟨by decide, line⟩
  | _ => exact reads.isLine_label (by rw [kind]; rfl)

end Rule.Reads

/-- A query on one line has phrases on one line. -/
theorem isLine_source_of_query {table : Table} {run : Nat} {query : List Char} {f : Fragment}
    (mem : f ∈ (table.read run query).fragments) (line : IsLine query) :
    IsLine f.source.toList := by
  obtain ⟨_, _, _, typed⟩ := (read_divides_query table run query).1 f mem
  refine line.of_subset fun c inSource => ?_
  have shown : some c ∈ f.offsets.map (query[·]?) := typed ▸ List.mem_map_of_mem inSource
  obtain ⟨place, _, here⟩ := List.mem_map.mp shown
  exact List.mem_of_getElem? here

/-- A listing of what is found in a query has one line for each fragment, with its number and its
label, exactly if no name of a provider or of a genre was typed with a newline in it and, where the
phrases are shown, none of them has one either.  A query on one line is always listed in this way.
-/
theorem isListed_fragments_iff (showSource : Bool) (run : Nat) (query : List Char)
    (found : (Table.default.read run query).fragments ≠ []) :
    let fragments := (Table.default.read run query).fragments
    let lines := splitAtNewlines (fragmentListing showSource fragments).toList
    (IsListed fragments lines ↔ ∀ f ∈ fragments,
      (f.kind.showsPhrase = true → IsLine f.label.toList) ∧
        (showSource = true → IsLine (trim f.source.toList))) ∧
      (IsLine query → IsListed fragments lines) := by
  intro fragments lines
  have listed : IsListed fragments lines ↔ ∀ f ∈ fragments, f.IsOnLine showSource :=
    isListed_listing_iff found
  rw [listed]
  constructor
  · refine forall₂_congr fun f mem => and_congr_left' ⟨fun line _ => line, fun line => ?_⟩
    cases phrase : f.kind.showsPhrase with
    | true => exact line phrase
    | false =>
        obtain ⟨rule, m, reads⟩ := DefaultRules.exists_reads mem
        exact reads.isLine_label phrase
  · intro line f mem
    obtain ⟨rule, m, reads⟩ := DefaultRules.exists_reads mem
    have source := isLine_source_of_query mem line
    exact ⟨reads.isLine_label_of_source source, fun _ => source.of_subset (Text.trim_subset _)⟩

/-- The words of a name are shown with the gap with which they were typed. -/
theorem exists_scienceFiction {gap : List Char} (isGap : Part.IsGap gap) :
    ∃ f, (Table.default.read 0 ["science".toList, gap, "fiction".toList].flatten).fragments = [f] ∧
      f.label.toList = ["Genre: science".toList, gap, "fiction".toList].flatten := by
  have typed : Writes [.word ["science"], .gap, .word ["fiction"]]
      ["science".toList, gap, "fiction".toList] :=
    .cons ⟨"science", by decide, by decide⟩ (.cons isGap
      (.cons ⟨"fiction", by decide, by decide⟩ .nil))
  have named : ([.word ["science"], .gap, .word ["fiction"]], 878) ∈ DefaultRules.genreNames :=
    List.mem_cons_self
  obtain ⟨f, alone, genre, _, source, _⟩ := isReadAs_of_genreName named typed 0
  refine ⟨f, alone, ?_⟩
  obtain ⟨rule, m, reads⟩ := DefaultRules.exists_reads (alone ▸ List.mem_singleton_self f)
  rw [reads.label_of_genre genre, source]
  simp

/-- A name in two words has a line of its own. -/
theorem isListed_fragments_scienceFiction :
    (Table.default.read 0 "science fiction".toList).fragments ≠ [] ∧
      IsListed (Table.default.read 0 "science fiction".toList).fragments
        (splitAtNewlines (fragmentListing true
          (Table.default.read 0 "science fiction".toList).fragments).toList) := by
  have blank : Part.IsGap [' '] := ⟨by decide, List.forall_mem_singleton.mpr (by decide)⟩
  obtain ⟨f, alone, _⟩ := exists_scienceFiction blank
  have found : (Table.default.read 0 "science fiction".toList).fragments ≠ [] :=
    alone ▸ List.cons_ne_nil f []
  exact ⟨found, (isListed_fragments_iff true 0 _ found).2 (by decide)⟩

/-- A name typed with a newline in it takes two lines, even if no phrase is shown. -/
theorem not_isListed_fragments_newline :
    ¬ ∀ (showSource : Bool) (run : Nat) (query : List Char),
      (Table.default.read run query).fragments ≠ [] →
        IsListed (Table.default.read run query).fragments
          (splitAtNewlines (fragmentListing showSource
            (Table.default.read run query).fragments).toList) := by
  have newline : Part.IsGap ['\n'] := ⟨by decide, List.forall_mem_singleton.mpr (by decide)⟩
  obtain ⟨f, alone, label⟩ := exists_scienceFiction newline
  intro listed
  have some : [f] ≠ [] := List.cons_ne_nil f []
  have lines := listed false 0 "science\nfiction".toList (alone ▸ some)
  have onLine := (isListed_listing_iff some).mp (alone ▸ lines) f (List.mem_singleton_self f)
  have broken : ¬ IsLine f.label.toList := by
    rw [label]
    decide
  exact broken onLine.1

end FilmQuery
