/-
# Reading in two stages

A table can be read in two stages.  Its later rules are tried on what the earlier ones have left,
and that is a text like any other: read as a query of its own, it gives the same fragments, only
that their places count the characters that are left.  Reading never looks at the places of a text
(`readRules_relocated`), so they can be told afterwards from the places of what was left.
-/
import FilmQuery.Proofs.Query.Partition

namespace FilmQuery

open PlacedText

/-- The identifier of a fragment whose characters have other places. -/
def FragmentId.relocated (place : Nat → Nat) : FragmentId → FragmentId
  | .made kind rule run first => .made kind rule run (place first)
  | .named name => .named name

/-- The fragment of the same phrase whose characters have other places. -/
def Fragment.relocated (place : Nat → Nat) (f : Fragment) : Fragment :=
  { f with id := f.id.relocated place, offsets := f.offsets.map place }

namespace PlacedText

/-- The same characters at other places. -/
def relocated (place : Nat → Nat) (text : PlacedText) : PlacedText :=
  text.map fun (i, c) => (place i, c)

/-- The place of the `i`-th character. -/
def place (text : PlacedText) (i : Nat) : Nat := text.places[i]?.getD 0

variable (place : Nat → Nat) (text : PlacedText)

@[simp]
theorem chars_relocated : (text.relocated place).chars = text.chars := by
  simp [chars, relocated, Function.comp_def]

theorem placesBetween_relocated (start stop : Nat) :
    (text.relocated place).placesBetween start stop =
      (text.placesBetween start stop).map place := by
  simp [placesBetween, relocated, List.map_drop, List.map_take, Function.comp_def]

/-- A text is its characters, each at its place. -/
theorem relocated_ofText_chars : (ofText text.chars).relocated text.place = text := by
  refine List.ext_getElem (by simp [relocated, ofText, chars]) fun i _ inRange => ?_
  simp [relocated, ofText, chars, PlacedText.place, places, inRange]

end PlacedText

theorem exciseFrom_relocated (place : Nat → Nat) (done : Nat) (spans : List (Nat × Nat))
    (text : PlacedText) :
    exciseFrom done spans (text.relocated place) =
      (exciseFrom done spans text).relocated place := by
  induction spans generalizing done text with
  | nil => rfl
  | cons span spans ih =>
      have later := ih span.2 (text.drop (span.2 - done))
      simp only [relocated, List.map_drop] at later
      simp only [exciseFrom, relocated, List.map_append, List.map_take, ← List.map_drop, ← later]

namespace Rule

variable (place : Nat → Nat) (rule : Rule) (index run : Nat) (text : PlacedText)

@[simp]
theorem findings_relocated : rule.findings (text.relocated place) = rule.findings text := by
  rw [findings, chars_relocated, findings]

/-- A rule makes the same fragment of a phrase wherever the characters of the phrase are. -/
theorem fragment?_relocated {finding : Occurrence × Verdict}
    (found : finding ∈ rule.findings text) :
    rule.fragment? index run (text.relocated place) finding =
      (rule.fragment? index run text finding).map (Fragment.relocated place) := by
  obtain ⟨m, mem, rfl⟩ := List.mem_map.mp found
  obtain ⟨inText, taken⟩ := List.mem_filter.mp mem
  have lies := (rule.shape.find_inOrder text.chars).liesIn m inText
  have order := lies.start_le_stop
  have within := lies.stop_le_length
  -- The place in the identifier is that of a first character, so there has to be one.
  have nonempty : text.placesBetween m.start m.stop ≠ [] := by
    have apart : m.start ≠ m.stop := by simpa [Occurrence.isEmpty] using taken
    rw [chars, List.length_map] at within
    rw [← List.length_pos_iff, placesBetween, List.length_map, List.length_take, List.length_drop]
    omega
  obtain ⟨first, rest, offsets⟩ := List.exists_cons_of_ne_nil nonempty
  cases rule.judge m with
  | accepted value label =>
      simp [fragment?, placesBetween_relocated, offsets, Fragment.relocated, FragmentId.relocated]
  | rejected => rfl
  | failed fault => rfl

/-- Reading by a rule never looks at the places of a text. -/
theorem read_relocated :
    rule.read index run (text.relocated place) =
      ⟨(rule.read index run text).fragments.map (Fragment.relocated place),
        (rule.read index run text).warnings, (rule.read index run text).rest.relocated place⟩ := by
  have fragments : (rule.findings text).filterMap
        (rule.fragment? index run (text.relocated place)) =
      ((rule.findings text).filterMap (rule.fragment? index run text)).map
        (Fragment.relocated place) := by
    rw [List.map_filterMap]
    exact List.filterMap_congr fun _ => rule.fragment?_relocated place index run text
  rw [read, read, findings_relocated, fragments, excise, exciseFrom_relocated]
  rfl

end Rule

/-- Reading by one rule after another never looks at the places of a text. -/
theorem readRules_relocated (place : Nat → Nat) (run index : Nat) (rules : List Rule)
    (text : PlacedText) :
    readRules run index rules (text.relocated place) =
      ⟨(readRules run index rules text).fragments.map (Fragment.relocated place),
        (readRules run index rules text).warnings,
        (readRules run index rules text).rest.relocated place⟩ := by
  induction rules generalizing index text with
  | nil => rfl
  | cons rule rules ih => simp only [readRules, Rule.read_relocated, ih, List.map_append]

/-- Later rules read what earlier ones leave. -/
theorem readRules_append (run index : Nat) (first later : List Rule) (text : PlacedText) :
    (readRules run index (first ++ later) text).fragments =
      (readRules run index first text).fragments ++
        (readRules run (index + first.length) later
          (readRules run index first text).rest).fragments := by
  induction first generalizing index text with
  | nil => rfl
  | cons rule first ih =>
      simp only [List.cons_append, readRules, ih, List.length_cons, List.append_assoc,
        Nat.add_assoc, Nat.add_comm 1]

/-- Rules that can be taken up together with others behind them can be taken up alone. -/
theorem faultAfter?_eq_none_of_append {first later : List Rule}
    (seen : List (Rule.Key × Nat)) (index : Nat)
    (faultless : faultAfter? seen index (first ++ later) = none) :
    faultAfter? seen index first = none := by
  induction first generalizing seen index with
  | nil => rfl
  | cons rule first ih =>
      rw [List.cons_append, faultAfter?] at faultless
      rw [faultAfter?]
      split at faultless
      · cases faultless
      next valued =>
        rw [if_neg valued]
        split at faultless
        · cases faultless
        · exact ih _ _ faultless

/-- A table that is made of two lists of rules is read in two stages: by the table of the first
list, and then by the rules of the second list on what is left, as on a query of its own.  What the
first stage makes stays as it is and where it is; in the second stage the `i`-th character stands
for the `i`-th one that was left. -/
theorem fragments_append {table : Table} {first later : List Rule}
    (parts : table.rules = first ++ later) (run : Nat) {query : List Char}
    (visible : query.all Text.isBlank = false) :
    ∃ earlier : Table, earlier.rules = first ∧
      let left := (earlier.read run query).rest
      let second := (readRules run first.length later (ofText left.chars)).fragments
      (∀ f ∈ second, ∀ i ∈ f.offsets, i < left.length) ∧
        (table.read run query).fragments =
          (earlier.read run query).fragments ++ second.map (Fragment.relocated left.place) := by
  have faultless : fault? first = none :=
    faultAfter?_eq_none_of_append [] 0 (parts ▸ table.faultless)
  have stage (other : Table) :
      other.read run query = readRules run 0 other.rules (ofText query) := by
    rw [Table.read, visible]
    rfl
  refine ⟨⟨first, faultless⟩, rfl, fun f mem i inOffsets => ?_, ?_⟩
  · have stands := (readRules_accounts run first.length later (sorted_ofText _)).standsOn f mem
    have inPlaces := stands.mem_places inOffsets
    rw [places_ofText, List.mem_range, chars, List.length_map] at inPlaces
    exact inPlaces
  · have again := readRules_relocated
      (Table.read ⟨first, faultless⟩ run query).rest.place run first.length later
      (ofText (Table.read ⟨first, faultless⟩ run query).rest.chars)
    rw [relocated_ofText_chars] at again
    rw [stage table, parts, readRules_append, Nat.zero_add, ← stage ⟨first, faultless⟩, again]

/-- The rules for the kind of film leave a gap, across which a later rule reads. -/
theorem fragments_append_torn :
    Table.default.rules =
        DefaultRules.contentTypes ++
          (DefaultRules.years ++ DefaultRules.ratings ++ DefaultRules.providers ++
            DefaultRules.genres ++ DefaultRules.regions) ∧
      "in movies 2020".toList.all Text.isBlank = false ∧
      ∃ earlier : Table, earlier.rules = DefaultRules.contentTypes ∧
        let left := (earlier.read 0 "in movies 2020".toList).rest
        let second := (readRules 0 DefaultRules.contentTypes.length
          (DefaultRules.years ++ DefaultRules.ratings ++ DefaultRules.providers ++
            DefaultRules.genres ++ DefaultRules.regions) (ofText left.chars)).fragments
        (∀ f ∈ second, ∀ i ∈ f.offsets, i < left.length) ∧
          (Table.default.read 0 "in movies 2020".toList).fragments =
            (earlier.read 0 "in movies 2020".toList).fragments ++
              second.map (Fragment.relocated left.place) :=
  have parts : Table.default.rules = _ := by
    simp only [Table.default, DefaultRules.all, List.append_assoc]
  ⟨parts, by decide, fragments_append parts 0 (by decide)⟩

end FilmQuery
