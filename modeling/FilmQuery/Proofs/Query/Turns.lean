/-
# The turns of the rules

Every rule has its turn at what the rules before it have left of the query (`triedOn`), and the
fragments of a query are what the rules make in their turns (`mem_fragments_iff`).
-/
import FilmQuery.Proofs.Query.Clauses

namespace FilmQuery

open PlacedText

namespace PlacedText

@[simp]
theorem chars_ofText (query : List Char) : (ofText query).chars = query := by
  simp [chars, ofText, Function.comp_def]

theorem length_chars (text : PlacedText) : text.chars.length = text.length := by
  simp [chars]

theorem chars_append (first second : PlacedText) :
    chars (first ++ second) = first.chars ++ second.chars := by
  simp [chars]

theorem placesBetween_append (left phrase right : PlacedText) :
    placesBetween (left ++ (phrase ++ right)) left.length (left.length + phrase.length) =
      phrase.places := by
  rw [placesBetween, List.drop_left, Nat.add_sub_cancel_left, List.take_left]
  rfl

theorem placesBetween_ofText (query : List Char) :
    (ofText query).placesBetween 0 query.length = List.range query.length := by
  have length : (ofText query).length = query.length := by simp [ofText]
  rw [placesBetween, List.drop_zero, Nat.sub_zero, ← length, List.take_length, length]
  exact places_ofText query

end PlacedText

namespace DefaultRules

/-- The text that a rule is tried on: the query without what the rules before it have claimed. -/
def triedOn (run k : Nat) (query : List Char) : PlacedText :=
  (ofText query).without ((readParts run 0 all (ofText query)).take k).flatten

variable {query : List Char} {run j k : Nat} {rule later : Rule}

theorem sorted_triedOn (run k : Nat) (query : List Char) : (triedOn run k query).Sorted :=
  (sorted_ofText query).sublist (without_sublist _ _)

theorem getElem?_parts (run k : Nat) (query : List Char) :
    (readParts run 0 all (ofText query))[k]? =
      all[k]?.map fun rule => rule.claims k run (triedOn run k query) := by
  rw [getElem?_readParts, Nat.zero_add]
  rfl

/-- What a rule makes in its turn is among the fragments of the query. -/
theorem mem_fragments_of_claims {made : List Fragment} {f : Fragment}
    (claimed : (all[k]?.map fun rule => rule.claims k run (triedOn run k query)) = some made)
    (mem : f ∈ made) : f ∈ (Table.default.read run query).fragments := by
  rw [← getElem?_parts] at claimed
  rw [read_fragments, List.mem_flatten]
  exact ⟨made, List.mem_of_getElem? claimed, mem⟩

/-- The fragments of a query are those that the rules make of the texts they are tried on. -/
theorem mem_fragments_iff {f : Fragment} :
    f ∈ (Table.default.read run query).fragments ↔
      ∃ k, ∃ rule : Rule, all[k]? = some rule ∧ f ∈ rule.claims k run (triedOn run k query) := by
  constructor
  · rw [read_fragments, List.mem_flatten]
    rintro ⟨part, inParts, mem⟩
    obtain ⟨k, partAt⟩ := List.mem_iff_getElem?.mp inParts
    rw [getElem?_parts] at partAt
    obtain ⟨rule, ruleAt, rfl⟩ := Option.map_eq_some_iff.mp partAt
    exact ⟨k, rule, ruleAt, mem⟩
  · rintro ⟨k, rule, ruleAt, mem⟩
    refine mem_fragments_of_claims (k := k) ?_ mem
    rw [ruleAt, Option.map_some]

/-- What a rule claims is not there for the next one. -/
theorem triedOn_succ (ruleAt : all[k]? = some rule) :
    triedOn run (k + 1) query =
      (triedOn run k query).without (rule.claims k run (triedOn run k query)) := by
  rw [triedOn, List.take_add_one, getElem?_parts, ruleAt, List.flatten_append, without_append]
  simp [triedOn]

/-- No later rule is tried on what a rule has claimed. -/
theorem not_mem_offsets_of_mem_triedOn (lt : j < k) (ruleAt : all[j]? = some rule) {f : Fragment}
    (mem : f ∈ rule.claims j run (triedOn run j query)) {x : Nat × Char}
    (left : x ∈ triedOn run k query) : x.1 ∉ f.offsets := by
  apply (mem_without.mp left).2
  have part : (readParts run 0 all (ofText query))[j]? =
      some (rule.claims j run (triedOn run j query)) := by
    rw [getElem?_parts, ruleAt, Option.map_some]
  refine List.mem_flatten.mpr ⟨_, ?_, mem⟩
  rw [← List.getElem?_take_of_lt lt] at part
  exact List.mem_of_getElem? part

end DefaultRules

end FilmQuery
