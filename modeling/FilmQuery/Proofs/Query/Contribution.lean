/-
# What each rule contributes

The fragments of a query can be told without a text that shrinks.  A rule contributes the fragments
that it makes of the query without the places claimed by the rules before it, and the reading is all
these contributions one behind the other.  `Contributions` says so rule by rule; it settles the
contributions, so the reading is determined by it.
-/
import FilmQuery.Proofs.Query.Partition

namespace FilmQuery

open PlacedText

/-- The number of the rule that made a fragment. -/
def Fragment.rule? (f : Fragment) : Option Nat :=
  match f.id with
  | .made _ rule _ _ => some rule
  | .named _ => none

/-- The contributions of some rules to the reading of a query: rule `k` contributes the fragments
that it makes of the query without the places that rules before it claim. -/
def Contributions (rules : List Rule) (run : Nat) (query : List Char)
    (parts : List (List Fragment)) : Prop :=
  ∀ k : Nat, parts[k]? = rules[k]?.map fun rule : Rule =>
    rule.claims k run ((ofText query).without (parts.take k).flatten)

/-- Earlier contributions settle later ones. -/
theorem Contributions.unique {rules : List Rule} {run : Nat} {query : List Char}
    {first second : List (List Fragment)} (ofFirst : Contributions rules run query first)
    (ofSecond : Contributions rules run query second) : first = second := by
  have prefixes (k : Nat) : first.take k = second.take k := by
    induction k with
    | zero => rfl
    | succ k ih => rw [List.take_add_one, List.take_add_one, ih, ofFirst k, ofSecond k, ih]
  have long := prefixes (max first.length second.length)
  rwa [List.take_of_length_le (Nat.le_max_left _ _), List.take_of_length_le (Nat.le_max_right _ _)]
    at long

/-- The fragments that rules make of a text one after another, rule by rule; the first rule has the
number `index`. -/
def readParts (run : Nat) : (index : Nat) → List Rule → PlacedText → List (List Fragment)
  | _, [], _ => []
  | index, rule :: rules, text =>
    let part := rule.claims index run text
    part :: readParts run (index + 1) rules (text.without part)

theorem readRules_fragments (run index : Nat) (rules : List Rule) {text : PlacedText}
    (sorted : text.Sorted) :
    (readRules run index rules text).fragments = (readParts run index rules text).flatten := by
  induction rules generalizing index text with
  | nil => rfl
  | cons rule rules ih =>
      have shrunk := sorted.sublist (text.without_sublist (rule.claims index run text))
      rw [readRules, readParts, List.flatten_cons, ← ih (index + 1) shrunk,
        rule.read_rest index run text sorted, rule.read_fragments]

/-- A part is what its rule makes of the text without the places claimed by the parts before. -/
theorem getElem?_readParts (run index : Nat) (rules : List Rule) (text : PlacedText) (k : Nat) :
    (readParts run index rules text)[k]? = rules[k]?.map fun rule =>
      rule.claims (index + k) run
        (text.without ((readParts run index rules text).take k).flatten) := by
  induction rules generalizing index text k with
  | nil => rfl
  | cons rule rules ih =>
      cases k with
      | zero => simp [readParts]
      | succ k =>
          rw [readParts, List.getElem?_cons_succ, List.getElem?_cons_succ, ih, List.take_succ_cons,
            List.flatten_cons, without_append, Nat.add_right_comm, Nat.add_assoc]

/-- Every fragment carries the number of the rule that made it. -/
theorem rule?_of_mem_claims {rule : Rule} {index run : Nat} {text : PlacedText} {f : Fragment}
    (mem : f ∈ rule.claims index run text) : f.rule? = some index := by
  obtain ⟨m, _, made⟩ := List.mem_filterMap.mp mem
  rw [Fragment.rule?, (Rule.eq_of_claim? made).2.2.2]

theorem le_rule?_of_mem_readParts {run index : Nat} {rules : List Rule} {text : PlacedText}
    {f : Fragment} (mem : f ∈ (readParts run index rules text).flatten) :
    ∃ k, f.rule? = some k ∧ index ≤ k := by
  obtain ⟨part, inParts, inPart⟩ := List.mem_flatten.mp mem
  obtain ⟨k, partAt⟩ := List.mem_iff_getElem?.mp inParts
  rw [getElem?_readParts] at partAt
  obtain ⟨rule, _, rfl⟩ := Option.map_eq_some_iff.mp partAt
  exact ⟨index + k, rule?_of_mem_claims inPart, Nat.le_add_right _ _⟩

/-- One fragment is read before another: by an earlier rule, or by the same rule further left. -/
def Fragment.ReadBefore (f g : Fragment) : Prop :=
  ∃ j k, f.rule? = some j ∧ g.rule? = some k ∧ j ≤ k ∧ (j = k → f.Before g)

theorem readParts_pairwise_readBefore (run index : Nat) (rules : List Rule) {text : PlacedText}
    (sorted : text.Sorted) :
    (readParts run index rules text).flatten.Pairwise Fragment.ReadBefore := by
  induction rules generalizing index text with
  | nil => exact .nil
  | cons rule rules ih =>
      have shrunk := sorted.sublist (text.without_sublist (rule.claims index run text))
      rw [readParts, List.flatten_cons]
      refine List.pairwise_append.mpr ⟨?_, ih (index + 1) shrunk, fun f memF g memG => ?_⟩
      · refine (Rule.claims_pairwise_before sorted).imp_of_mem fun memF memG before => ?_
        exact ⟨index, index, rule?_of_mem_claims memF, rule?_of_mem_claims memG, Nat.le_refl _,
          fun _ => before⟩
      · obtain ⟨k, ofLater, later⟩ := le_rule?_of_mem_readParts memG
        exact ⟨index, k, rule?_of_mem_claims memF, ofLater, by omega, by omega⟩

/-- The fragments of a query that is not blank are the contributions of the rules, which are settled
by what `Contributions` says of them.  So the numbers of the rules never descend, and fragments of
one rule come in the order of their characters. -/
theorem fragments_eq_contributions (table : Table) (run : Nat) (query : List Char)
    (visible : query.all Text.isBlank = false) :
    ∃ parts, (∀ others, Contributions table.rules run query others ↔ others = parts) ∧
      (table.read run query).fragments = parts.flatten ∧
      (table.read run query).fragments.Pairwise fun f g =>
        ∃ j k, f.rule? = some j ∧ g.rule? = some k ∧ j ≤ k ∧
          (j = k → ∀ place ∈ f.offsets, ∀ later ∈ g.offsets, place < later) := by
  have read : (table.read run query).fragments =
      (readParts run 0 table.rules (ofText query)).flatten := by
    rw [Table.read, visible, ← readRules_fragments run 0 table.rules (sorted_ofText query)]
    rfl
  have contributed : Contributions table.rules run query
      (readParts run 0 table.rules (ofText query)) := fun k => by
    rw [getElem?_readParts, Nat.zero_add]
  refine ⟨_, fun others => ⟨fun given => given.unique contributed, ?_⟩, read, ?_⟩
  · rintro rfl
    exact contributed
  · rw [read]
    exact readParts_pairwise_readBefore run 0 table.rules (sorted_ofText query)

/-- A phrase that was torn apart by another one is read behind it. -/
theorem fragments_eq_contributions_torn :
    "in movies 2020".toList.all Text.isBlank = false ∧
      ∃ parts, (∀ others, Contributions Table.default.rules 0 "in movies 2020".toList others ↔
          others = parts) ∧
        (Table.default.read 0 "in movies 2020".toList).fragments = parts.flatten ∧
        (Table.default.read 0 "in movies 2020".toList).fragments.Pairwise fun f g =>
          ∃ j k, f.rule? = some j ∧ g.rule? = some k ∧ j ≤ k ∧
            (j = k → ∀ place ∈ f.offsets, ∀ later ∈ g.offsets, place < later) :=
  ⟨by decide, fragments_eq_contributions Table.default 0 "in movies 2020".toList (by decide)⟩

end FilmQuery
