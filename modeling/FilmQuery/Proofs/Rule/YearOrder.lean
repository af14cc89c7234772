/-
# Years in order

Two years with a hyphen between them are a range of years unless the second comes before the first
in the order of their characters (`extract_of_years`).  That is the order of the years themselves as
long as they part at digits of one script, so then no range runs backward (`years_inOrder`).  Where
they part at digits of two scripts, the scripts decide and the numbers do not count.
-/
import FilmQuery.Proofs.Pattern.Noting
import FilmQuery.Proofs.Query.Turns
import FilmQuery.Proofs.Rule.Meanings

namespace FilmQuery

open Number.Numeral (integer? numberOf partInScript lt_iff_numberOf_lt integer?_eq_numberOf)

/-- A pair of years is written with the first year, a hyphen and the second year, and these years
are what its groups note. -/
theorem Pattern.exists_of_spellsWith_yearPair {text : List Char} {notes : List (Nat × List Char)}
    (spelled : yearPair.SpellsWith true text notes) :
    ∃ start stop, text = start ++ '-' :: stop ∧ notes = [(2, stop), (1, start)] ∧
      Part.year.Writes start ∧ Part.year.Writes stop := by
  obtain ⟨_, _, _, _, ⟨rfl, noneBefore⟩, ⟨start, _, _, _, ⟨_, ⟨ofStart, noneInStart⟩, rfl⟩,
    ⟨_, _, _, _, ⟨⟨hyphen, rfl, same⟩, noneAtHyphen⟩,
      ⟨stop, _, _, _, ⟨_, ⟨ofStop, noneInStop⟩, rfl⟩, ⟨rfl, noneBehind⟩, rfl, rfl⟩,
      rfl, rfl⟩, rfl, rfl⟩, rfl, rfl⟩ := spelled
  rw [noneBefore rfl, noneInStart rfl, noneAtHyphen rfl, noneInStop rfl, noneBehind rfl]
  have hyphenEq : hyphen = '-' := Text.eq_of_sameLetter (by decide) same
  exact ⟨start, stop, by simp [hyphenEq], by simp, digits_of_spells_year ofStart,
    digits_of_spells_year ofStop⟩

/-- A year is read as the number that its digits write. -/
theorem integer?_of_year {text : List Char} (year : Part.year.Writes text) :
    integer? text = some (numberOf text : Int) := by
  obtain ⟨four, digits⟩ := year
  have nonempty : text ≠ [] := by
    rintro rfl
    cases four
  exact integer?_eq_numberOf ⟨nonempty, digits⟩ (by rw [four]; decide)

/-- Years that part at digits of one script are in the order of their numbers. -/
theorem not_lt_iff_of_years {start stop : List Char} (year : Part.year.Writes start)
    (year' : Part.year.Writes stop) (script : partInScript stop start = true) :
    ¬ stop < start ↔ (numberOf start : Int) ≤ numberOf stop := by
  rw [lt_iff_numberOf_lt year'.2 year.2 (year'.1.trans year.1.symm) script, Nat.not_lt, Nat.cast_le]

namespace DefaultRules

variable {rule : Rule} {chars : List Char} {m : Occurrence}

/-- A pair of years that is found is a range unless the second year comes before the first one in
the order of their characters. -/
theorem extract_of_years (mem : rule ∈ all) (years : rule.kind = .yearRange)
    (found : m ∈ rule.shape.find chars) :
    ∃ start stop, m.text = start ++ '-' :: stop ∧ Part.year.Writes start ∧ Part.year.Writes stop ∧
      rule.extract m = .ok (if stop < start then .nothing
        else .years ⟨some (String.ofList start), some (String.ofList stop)⟩) := by
  have pattern : rule.pattern = .yearPair := by
    have regular := isRegular_of_mem mem
    simp only [isRegular, years, Bool.and_eq_true, beq_iff_eq] at regular
    exact regular.2
  rw [find_eq_occurrences mem, pattern] at found
  obtain ⟨start, stop, text, noted, first, second⟩ :=
    Pattern.exists_of_spellsWith_yearPair (Pattern.spellsWith_of_mem_occurrences found)
  have count : m.groupCount = 2 := Pattern.groupCount_of_mem_occurrences found
  have met : m.group 1 = .ok (some start) := by
    simp [Occurrence.group, count, noted, List.lookup_cons]
  have met' : m.group 2 = .ok (some stop) := by
    simp [Occurrence.group, count, noted]
  refine ⟨start, stop, text, first, second, ?_⟩
  rw [Rule.extract, (isOfKind rule mem).extractor, years]
  show Extractor.yearRange m = _
  rw [Extractor.yearRange, Extractor.groupYear_eq met first, Extractor.groupYear_eq met' second]
  simp only [bind, Except.bind, pure, Except.pure, String.lt_iff, String.toList_ofList]

/-- Pairs of years are judged as numbers if they part at digits of one script: such a pair in a text
is accepted if and only if its first year is no larger than its second one, and no fragment of a
query has a larger first year.  Digits of several scripts are allowed otherwise. -/
theorem years_inOrder (run : Nat) (query : List Char) :
    (∀ rule ∈ all, rule.kind = .yearRange → ∀ m ∈ rule.shape.find query,
      ∃ start stop : List Char, ∃ first last : Int, m.text = start ++ '-' :: stop ∧
        integer? start = some first ∧ integer? stop = some last ∧
          rule.judge m = (if stop < start then .rejected
            else .accepted (.years ⟨some (String.ofList start), some (String.ofList stop)⟩)
              ("Years: " ++ String.ofList start ++ "-" ++ String.ofList stop)) ∧
            (partInScript stop start = true → (¬ stop < start ↔ first ≤ last))) ∧
      ∀ f ∈ (Table.default.read run query).fragments, f.kind = .yearRange →
        ∃ start stop : String, ∃ first last : Int,
          f.value = .years ⟨some start, some stop⟩ ∧ integer? start.toList = some first ∧
            integer? stop.toList = some last ∧
              (partInScript stop.toList start.toList = true → first ≤ last) := by
  constructor
  · intro rule mem years m found
    obtain ⟨start, stop, text, year, year', extracted⟩ := extract_of_years mem years found
    refine ⟨start, stop, numberOf start, numberOf stop, text, integer?_of_year year,
      integer?_of_year year', ?_, not_lt_iff_of_years year year'⟩
    rw [Rule.judge, extracted]
    by_cases backward : stop < start
    · rw [if_pos backward, if_pos backward]
    · rw [if_neg backward, if_neg backward, years]
      rfl
  · intro f mem years
    obtain ⟨k, rule, ruleAt, claimed⟩ := mem_fragments_iff.mp mem
    obtain ⟨m, found, made⟩ := List.mem_filterMap.mp claimed
    obtain ⟨kind, extracted, something, _⟩ := Rule.said_of_claim? made
    obtain ⟨start, stop, _, year, year', said⟩ :=
      extract_of_years (List.mem_of_getElem? ruleAt) (kind.symm.trans years) found
    have value := Except.ok.inj (extracted.symm.trans said)
    by_cases backward : stop < start
    · rw [if_pos backward] at value
      exact absurd value something
    · rw [if_neg backward] at value
      refine ⟨_, _, numberOf start, numberOf stop, value, ?_, ?_, ?_⟩
      · rw [String.toList_ofList]
        exact integer?_of_year year
      · rw [String.toList_ofList]
        exact integer?_of_year year'
      · rw [String.toList_ofList, String.toList_ofList]
        exact fun script => (not_lt_iff_of_years year year' script).mp backward

/-- A decade is a range of years: both years are written in Latin digits, so they part at digits of
one script and are judged as the numbers that they are. -/
theorem years_inOrder_decade :
    (∃ rule ∈ all, rule.kind = .yearRange ∧ ∃ m ∈ rule.shape.find "2010-2019".toList,
      m.text = "2010".toList ++ '-' :: "2019".toList ∧
        rule.judge m = .accepted (.years ⟨some "2010", some "2019"⟩) "Years: 2010-2019" ∧
          partInScript "2019".toList "2010".toList = true ∧
            (¬ "2019".toList < "2010".toList ↔ (2010 : Int) ≤ 2019)) ∧
      ∃ f ∈ (Table.default.read 0 "2010-2019".toList).fragments, f.kind = .yearRange ∧
        f.value = .years ⟨some "2010", some "2019"⟩ ∧ integer? "2010".toList = some 2010 ∧
          integer? "2019".toList = some 2019 ∧ (2010 : Int) ≤ 2019 := by
  have script : partInScript "2019".toList "2010".toList = true := by decide
  have read : integer? "2010".toList = some 2010 := by decide +kernel
  have read' : integer? "2019".toList = some 2019 := by decide +kernel
  constructor
  · have found : (all[5]?.map fun rule => (rule.kind, rule.shape.find "2010-2019".toList,
          rule.judge ⟨0, 9, "2010-2019".toList, 2, [(2, "2019".toList), (1, "2010".toList)]⟩)) =
        some (.yearRange, [⟨0, 9, "2010-2019".toList, 2,
          [(2, "2019".toList), (1, "2010".toList)]⟩],
            .accepted (.years ⟨some "2010", some "2019"⟩) "Years: 2010-2019") := by
      decide +kernel
    obtain ⟨rule, ruleAt, same⟩ := Option.map_eq_some_iff.mp found
    obtain ⟨years, rest⟩ := Prod.mk.inj same
    obtain ⟨finds, judged⟩ := Prod.mk.inj rest
    have mem := List.mem_of_getElem? ruleAt
    have here := finds ▸ List.mem_singleton_self _
    obtain ⟨start, stop, first, last, text, ofStart, ofStop, said, order⟩ :=
      (years_inOrder 0 "2010-2019".toList).1 rule mem years _ here
    rw [judged] at said
    -- What the pair is judged to be tells which its two years are.
    split at said
    · cases said
    · have value := (Verdict.accepted.inj said).1
      simp only [Value.years.injEq, YearRange.mk.injEq, Option.some.injEq] at value
      obtain ⟨start2010, stop2019⟩ := value
      obtain rfl : start = "2010".toList := by rw [start2010, String.toList_ofList]
      obtain rfl : stop = "2019".toList := by rw [stop2019, String.toList_ofList]
      obtain rfl : 2010 = first := Option.some.inj (read.symm.trans ofStart)
      obtain rfl : 2019 = last := Option.some.inj (read'.symm.trans ofStop)
      exact ⟨rule, mem, years, _, here, text, judged, script, order script⟩
  · have claimed : (all[5]?.map fun rule => rule.claims 5 0 (triedOn 0 5 "2010-2019".toList)) =
        some
          [{ id := .made .yearRange 5 0 0
             kind := .yearRange
             value := .years ⟨some "2010", some "2019"⟩
             label := "Years: 2010-2019"
             source := "2010-2019"
             offsets := List.range 9 }] := by
      decide +kernel
    have here := mem_fragments_of_claims claimed (List.mem_singleton_self _)
    obtain ⟨start, stop, first, last, value, ofStart, ofStop, order⟩ :=
      (years_inOrder 0 _).2 _ here rfl
    simp only [Value.years.injEq, YearRange.mk.injEq, Option.some.injEq] at value
    obtain ⟨rfl, rfl⟩ := value
    obtain rfl : 2010 = first := Option.some.inj (read.symm.trans ofStart)
    obtain rfl : 2019 = last := Option.some.inj (read'.symm.trans ofStop)
    exact ⟨_, here, rfl, rfl, read, read', order script⟩

/-- The Latin digits come before the Arabic ones, whatever the years are. -/
theorem years_outOfOrder :
    ¬ ∀ (run : Nat) (query : List Char), ∀ f ∈ (Table.default.read run query).fragments,
      ∀ (start stop : String) (first last : Int), f.kind = .yearRange →
        f.value = .years ⟨some start, some stop⟩ → integer? start.toList = some first →
          integer? stop.toList = some last → first ≤ last := by
  have claimed : (all[5]?.map fun rule => rule.claims 5 0 (triedOn 0 5 "2019-٢٠١٠".toList)) =
      some
        [{ id := .made .yearRange 5 0 0
           kind := .yearRange
           value := .years ⟨some "2019", some "٢٠١٠"⟩
           label := "Years: 2019-٢٠١٠"
           source := "2019-٢٠١٠"
           offsets := List.range 9 }] := by
    decide +kernel
  have here := mem_fragments_of_claims claimed (List.mem_singleton_self _)
  intro inOrder
  have order := inOrder 0 _ _ here "2019" "٢٠١٠" 2019 2010 rfl rfl
    (by decide +kernel) (by decide +kernel)
  exact absurd order (by decide)

end DefaultRules

end FilmQuery
