/-
# Letter case is insignificant

Two queries that differ in the case of Latin letters are read alike: the same rules claim the same
places with the same values, and what is shown differs in case only.  A rule that claims the same
places of both texts leaves texts that again differ in case only, so the next rule has nothing else
to go by (`readParts_uncased`).
-/
import FilmQuery.Proofs.Query.Clauses
import FilmQuery.Proofs.Rule.Uncased

namespace FilmQuery

open PlacedText

/-- The fragment with source and label without the case of Latin letters. Everything else is as it
was. -/
def Fragment.uncased (f : Fragment) : Fragment :=
  { f with label := f.label.toLower, source := f.source.toLower }

namespace PlacedText

/-- The text without case, every character at its place. -/
def uncased (text : PlacedText) : PlacedText := text.map fun (place, c) => (place, c.toLower)

variable (text : PlacedText)

@[simp]
theorem chars_uncased : text.uncased.chars = Text.uncased text.chars := by
  simp [chars, uncased, Text.uncased, Function.comp_def]

@[simp]
theorem placesBetween_uncased (start stop : Nat) :
    text.uncased.placesBetween start stop = text.placesBetween start stop := by
  simp [placesBetween, uncased, ← List.map_take, ← List.map_drop, Function.comp_def]

theorem ofText_uncased (query : List Char) :
    ofText (Text.uncased query) = (ofText query).uncased := by
  simp [ofText, uncased, Text.uncased, List.zipIdx_map, Function.comp_def]

/-- The same places are taken out of both texts, if fragments claim the same places. -/
theorem without_uncased {fragments others : List Fragment}
    (same : fragments.map Fragment.uncased = others.map Fragment.uncased) :
    text.uncased.without fragments = (text.without others).uncased := by
  have claimed (place : Nat) : fragments.any (·.offsets.contains place) =
      others.any (·.offsets.contains place) := by
    have places := congrArg (List.any · (·.offsets.contains place)) same
    rwa [List.any_map, List.any_map] at places
  simp only [without, uncased, List.filter_map, claimed]
  rfl

end PlacedText

/-- A rule makes the same fragments of a text without case, up to case. -/
theorem Rule.claims_uncased {rule : Rule} (mem : rule ∈ DefaultRules.all) (index run : Nat)
    (text : PlacedText) :
    (rule.claims index run text.uncased).map Fragment.uncased =
      (rule.claims index run text).map Fragment.uncased := by
  rw [claims, claims, chars_uncased, DefaultRules.find_uncased mem, List.filterMap_map,
    List.map_filterMap, List.map_filterMap]
  refine List.filterMap_congr fun m _ => ?_
  simp only [Function.comp_apply, claim?, extract_uncased (DefaultRules.isOfKind rule mem)]
  cases rule.extract m with
  | error fault => rfl
  | ok value =>
      have shown := label_uncased rule.kind value m
      cases here : label rule.kind value m with
      | error fault =>
          cases there : label rule.kind value m.uncased with
          | error fault => simp [here, there]
          | ok text =>
              rw [here, there] at shown
              cases shown
      | ok text =>
          cases there : label rule.kind value m.uncased with
          | error fault =>
              rw [here, there] at shown
              cases shown
          | ok text' =>
              rw [here, there] at shown
              have labels : text'.toLower = text.toLower := Except.ok.inj shown
              have sources := toLower_ofList_uncased m.text
              simp only [here, there, apply_ite (Option.map Fragment.uncased), Option.map_some,
                Option.map_none, Fragment.uncased, labels, placesBetween_uncased]
              simp only [Occurrence.uncased, sources]

/-- The rules of record make the same fragments of a text without case, up to case. -/
theorem DefaultRules.readParts_uncased (run index : Nat) {rules : List Rule}
    (default : ∀ rule ∈ rules, rule ∈ all) (text : PlacedText) :
    (readParts run index rules text.uncased).flatten.map Fragment.uncased =
      (readParts run index rules text).flatten.map Fragment.uncased := by
  induction rules generalizing index text with
  | nil => rfl
  | cons rule rules ih =>
      have here := Rule.claims_uncased (default rule List.mem_cons_self) index run text
      have later := ih (index + 1) (fun rule mem => default rule (List.mem_cons_of_mem _ mem))
        (text.without (rule.claims index run text))
      rw [readParts, readParts, List.flatten_cons, List.flatten_cons, List.map_append,
        List.map_append, here, without_uncased text here, later]

/-- A query without case is read like the query, up to case. -/
theorem DefaultRules.read_uncased (run : Nat) (query : List Char) :
    (Table.default.read run (Text.uncased query)).fragments.map Fragment.uncased =
      (Table.default.read run query).fragments.map Fragment.uncased := by
  rw [read_fragments, read_fragments, ofText_uncased]
  exact readParts_uncased run 0 (fun _ mem => mem) _

/-- Queries that differ in the case of Latin letters only have the same fragments, of the same rules
and with the same values and places; their sources and labels differ in the case of Latin letters
only. -/
theorem fragments_uncased (run : Nat) {query other : List Char}
    (same : Text.uncased query = Text.uncased other) :
    (Table.default.read run query).fragments.map Fragment.uncased =
      (Table.default.read run other).fragments.map Fragment.uncased := by
  rw [← DefaultRules.read_uncased, same, DefaultRules.read_uncased]

/-- An exclusion in capitals. -/
theorem fragments_uncased_exclusion :
    Text.uncased "NO horror".toList = Text.uncased "no hORROR".toList ∧
      (Table.default.read 0 "NO horror".toList).fragments.map Fragment.uncased =
        (Table.default.read 0 "no hORROR".toList).fragments.map Fragment.uncased :=
  ⟨by decide, fragments_uncased 0 (by decide)⟩

end FilmQuery
