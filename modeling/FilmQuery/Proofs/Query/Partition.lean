/-
# A reading divides the query

Whatever the rules of a table are, the characters of a query are shared out: each goes to one
fragment or stays in the rest.  The invariant `Reading.Accounts` is about any text that rules are
tried on, so that it passes from one rule to the next although the text shrinks in between.
-/
import FilmQuery.Proofs.Query.Excision

namespace FilmQuery

open PlacedText

namespace PlacedText

theorem places_ofText (query : List Char) : (ofText query).places = List.range query.length := by
  rw [places, ofText, List.map_map, List.range_eq_range', ← List.zipIdx_map_snd]
  rfl

theorem sorted_ofText (query : List Char) : (ofText query).Sorted := by
  rw [Sorted, places_ofText]
  exact List.pairwise_lt_range

theorem mem_ofText {query : List Char} {place : Nat} {c : Char} :
    (place, c) ∈ ofText query ↔ query[place]? = some c := by
  simp [ofText, List.mem_zipIdx_iff_getElem?]

end PlacedText

/-- A reading accounts for a text: every fragment stands on characters of its own, and the rest is
what no fragment claims. -/
structure Reading.Accounts (reading : Reading) (text : PlacedText) : Prop where
  standsOn : ∀ f ∈ reading.fragments, f.StandsOn text
  disjoint : reading.fragments.Pairwise fun f g => f.offsets.Disjoint g.offsets
  rest_eq : reading.rest = text.without reading.fragments

theorem Fragment.StandsOn.mem_places {f : Fragment} {text : PlacedText} (stands : f.StandsOn text)
    {place : Nat} (mem : place ∈ f.offsets) : place ∈ text.places := by
  obtain ⟨piece, sub, _, offsets, _⟩ := stands
  rw [offsets] at mem
  exact (sub.map Prod.fst).subset mem

theorem Rule.read_accounts (rule : Rule) (index run : Nat) {text : PlacedText}
    (sorted : text.Sorted) : (rule.read index run text).Accounts text where
  standsOn := by
    rw [rule.read_fragments]
    exact fun f mem => Rule.standsOn_of_mem_claims mem
  disjoint := by
    rw [rule.read_fragments]
    exact (Rule.claims_pairwise_before sorted).imp fun before place inFirst inLater =>
      Nat.lt_irrefl place (before place inFirst place inLater)
  rest_eq := by rw [rule.read_rest index run text sorted, rule.read_fragments]

/-- Rules tried one after another account for the text on which the first one is tried. -/
theorem readRules_accounts (run index : Nat) (rules : List Rule) {text : PlacedText}
    (sorted : text.Sorted) : (readRules run index rules text).Accounts text := by
  induction rules generalizing index text with
  | nil => exact ⟨by simp [readRules], .nil, (without_nil text).symm⟩
  | cons rule rules ih =>
      have first := rule.read_accounts index run sorted
      have shrunk : (rule.read index run text).rest.Sublist text := by
        rw [first.rest_eq]
        exact text.without_sublist _
      have later := ih (index + 1) (sorted.sublist shrunk)
      refine ⟨fun f mem => ?_, List.pairwise_append.mpr ⟨first.disjoint, later.disjoint, ?_⟩, ?_⟩
      · rcases List.mem_append.mp mem with mem | mem
        · exact first.standsOn f mem
        · exact (later.standsOn f mem).mono shrunk
      · -- Later fragments stand on what the first rule left, where none of its places is.
        intro f memF g memG place inFirst inLater
        obtain ⟨⟨_, c⟩, left, rfl⟩ := List.mem_map.mp ((later.standsOn g memG).mem_places inLater)
        rw [first.rest_eq] at left
        exact (mem_without.mp left).2 f memF inFirst
      · simp only [readRules]
        rw [later.rest_eq, first.rest_eq, without_append]

theorem Table.read_accounts (table : Table) (run : Nat) (query : List Char) :
    (table.read run query).Accounts (ofText query) := by
  unfold Table.read
  split
  · exact ⟨by simp, .nil, (without_nil _).symm⟩
  · exact readRules_accounts run 0 table.rules (sorted_ofText query)

/-- The places of a fragment that stands on a query ascend within it, and the characters at these
places are its source. -/
theorem Fragment.StandsOn.query {f : Fragment} {query : List Char}
    (stands : f.StandsOn (ofText query)) :
    f.offsets ≠ [] ∧ f.offsets.Pairwise (· < ·) ∧ (∀ place ∈ f.offsets, place < query.length) ∧
      f.offsets.map (query[·]?) = f.source.toList.map some := by
  have inRange {place : Nat} (mem : place ∈ f.offsets) : place < query.length := by
    simpa [places_ofText] using stands.mem_places mem
  obtain ⟨piece, sub, nonempty, offsets, source⟩ := stands
  refine ⟨?_, ?_, fun place mem => inRange mem, ?_⟩
  · rw [offsets]
    exact fun none => nonempty (List.map_eq_nil_iff.mp none)
  · rw [offsets]
    exact (sorted_ofText query).sublist sub
  · rw [offsets, source, places, chars, List.map_map, List.map_map]
    exact List.map_congr_left fun x mem => mem_ofText.mp (sub.subset mem)

/-- Whatever its rules, a table divides a query among its fragments and the rest: every fragment has
characters of the query in their order, no character goes to two fragments, and what is left is the
query without the characters that fragments have. -/
theorem read_divides_query (table : Table) (run : Nat) (query : List Char) :
    (∀ f ∈ (table.read run query).fragments,
      f.offsets ≠ [] ∧ f.offsets.Pairwise (· < ·) ∧ (∀ place ∈ f.offsets, place < query.length) ∧
        f.offsets.map (query[·]?) = f.source.toList.map some) ∧
      (table.read run query).fragments.Pairwise (fun f g => f.offsets.Disjoint g.offsets) ∧
      (table.read run query).rest =
        (ofText query).filter fun (place, _) =>
          (table.read run query).fragments.all fun f => !f.offsets.contains place := by
  have accounts := table.read_accounts run query
  refine ⟨fun f mem => (accounts.standsOn f mem).query, accounts.disjoint, ?_⟩
  rw [accounts.rest_eq, without]
  exact List.filter_congr fun x _ => List.not_any_eq_all_not

end FilmQuery
