/-
# Pairs of years

Two years with a hyphen between them are the one phrase that can be seen in a phrase of a later
rule.  Where such a pair stands free, so that neither a word nor another hyphen comes before it and
no word comes behind it, it is found whatever else there is in the text
(`mem_occurrences_yearPair`).
-/
import FilmQuery.Proofs.Rule.Grammar

namespace FilmQuery

open Text (isWord isDigit face isWord_of_isDigit)
open Place (Alike)

namespace Pattern

/-- A year is written with four digits. -/
theorem digits_of_spells_year {blind : Bool} {text : List Char} (spelled : year.Spells blind text) :
    text.length = 4 ∧ ∀ c ∈ text, isDigit c = true := by
  obtain ⟨parts, digits, least, most, rfl⟩ := spelled
  have number : parts.length = 4 := by
    have most := most 4 rfl
    omega
  have single : ∀ part ∈ parts, ∃ c, part = [c] ∧ isDigit c = true := by
    intro part mem
    obtain ⟨c, rfl, has⟩ := digits part mem
    exact ⟨c, rfl, by simpa [isIn, CharClass.has] using has⟩
  constructor
  · have lengths : ∀ part ∈ parts, part.length = 1 := by
      intro part mem
      obtain ⟨c, rfl, _⟩ := single part mem
      rfl
    rw [List.length_flatten, List.map_congr_left lengths]
    simp [number]
  · intro c mem
    obtain ⟨part, inParts, inPart⟩ := List.mem_flatten.mp mem
    obtain ⟨d, rfl, digit⟩ := single part inParts
    rwa [List.mem_singleton.mp inPart]

/-- A pair of years is written with four digits, a hyphen, and four more digits. -/
theorem exists_of_spells_yearPair {text : List Char} (spelled : yearPair.Spells true text) :
    ∃ first hyphen second, text = first ++ hyphen :: second ∧ first.length = 4 ∧
      second.length = 4 ∧ (∀ c ∈ first ++ second, isDigit c = true) ∧ face hyphen = '-' := by
  obtain ⟨_, _, rfl, ⟨first, _, ofFirst, ⟨_, _, ⟨hyphen, rfl, same⟩,
    ⟨second, _, ofSecond, rfl, rfl⟩, rfl⟩, rfl⟩, rfl⟩ := spelled
  obtain ⟨firstLength, firstDigits⟩ := digits_of_spells_year ofFirst
  obtain ⟨secondLength, secondDigits⟩ := digits_of_spells_year ofSecond
  refine ⟨first, hyphen, second, by simp, firstLength, secondLength, ?_, ?_⟩
  · intro c mem
    exact (List.mem_append.mp mem).elim (firstDigits c) (secondDigits c)
  · exact Text.face_eq_of_sameLetter (by decide) same

/-- Only a hyphen has the face of a hyphen. -/
theorem eq_of_face_hyphen {c : Char} (hyphen : face c = '-') : c = '-' := by
  unfold face at hyphen
  split at hyphen
  · cases hyphen
  split at hyphen
  · cases hyphen
  cases found : Text.phraseChars.find? (Text.sameLetter · c) with
  | none => rwa [found] at hyphen
  | some d =>
      rw [found, Option.getD_some] at hyphen
      subst hyphen
      have same : Text.sameLetter '-' c = true := by
        simpa using List.find?_some (p := (Text.sameLetter · c)) found
      exact Text.eq_of_sameLetter (by decide) same

theorem standsAlone_yearPair : yearPair.standsAlone = true := by decide

theorem asksForWords_yearPair : yearPair.asksForWords = true := by decide

/-- Every character of a pair that is no part of a word is its hyphen. -/
theorem face_eq_of_mem_yearPair {text : List Char} (spelled : yearPair.Spells true text) {c : Char}
    (mem : c ∈ text) (wordless : isWord c = false) : face c = '-' := by
  obtain ⟨first, hyphen, second, rfl, _, _, digits, hyphenFace⟩ := exists_of_spells_yearPair spelled
  rcases List.mem_append.mp mem with inFirst | mem
  · rw [isWord_of_isDigit (digits c (List.mem_append_left _ inFirst))] at wordless
    cases wordless
  · rcases List.mem_cons.mp mem with rfl | inSecond
    · exact hyphenFace
    · rw [isWord_of_isDigit (digits c (List.mem_append_right _ inSecond))] at wordless
      cases wordless

theorem length_of_spells_yearPair {text : List Char} (spelled : yearPair.Spells true text) :
    text.length = 9 := by
  obtain ⟨first, hyphen, second, rfl, firstLength, secondLength, _, _⟩ :=
    exists_of_spells_yearPair spelled
  rw [List.length_append, List.length_cons, firstLength, secondLength]

theorem not_spells_nil_yearPair : ¬ yearPair.Spells true [] := by
  intro spelled
  have length := length_of_spells_yearPair spelled
  cases length

/-- Of two neighbours in a pair of years one is a digit. -/
theorem isChain_of_spells_yearPair {text : List Char} (spelled : yearPair.Spells true text) :
    text.IsChain fun c d => isWord c = true ∨ isWord d = true := by
  have joints : (yearPair.profile.joints.all fun joint => isWord joint.1 || isWord joint.2) =
      true := by
    decide
  refine (fits_profile (by decide) spelled).joints.imp fun c d joint => ?_
  have word := List.all_eq_true.mp joints _ joint
  simpa only [Text.isWord_face, Bool.or_eq_true] using word

variable {text left right : List Char} {m : Occurrence}

/-- A pair of years occurs at its place in every text in which no word goes on at its ends. -/
theorem mem_occurrencesAt_yearPair (found : m ∈ yearPair.occurrences true text)
    (before : left.getLast?.any isWord = false) (behind : right.head?.any isWord = false) :
    { m with start := left.length, stop := left.length + m.text.length } ∈
      yearPair.occurrencesAt true (.inText (left ++ (m.text ++ right)) left.length) := by
  have spelled := (spells_of_mem_occurrences found).1
  have inCut : { m with start := 0, stop := m.text.length } ∈ yearPair.occurrences true m.text := by
    rw [occurrences_alone standsAlone_yearPair found]
    exact List.mem_singleton_self _
  obtain ⟨_, _, atStart, _⟩ := exists_way_of_mem_occurrences inCut
  have nonempty : m.text ≠ [] := by
    intro empty
    rw [empty] at spelled
    exact not_spells_nil_yearPair spelled
  have alike : Alike left.length right (.inText m.text 0)
      (.inText (left ++ (m.text ++ right)) left.length) := by
    rw [Place.inText_append]
    exact ⟨before, (Nat.zero_add _).symm, rfl, rfl⟩
  have allows : (Pattern.seq (.group 1 year) (.seq (.char '-') (.seq (.group 2 year) .boundary))
      ).allowsCut (right.head?.any isWord) = true := by
    rw [behind]
    rfl
  -- All pairs have one length, so the first way goes no further than this one.
  have within : ∀ r ∈ (yearPair.ways true (.inText (left ++ (m.text ++ right)) left.length)).head?,
      r.isWithin right = true := by
    intro r head
    obtain ⟨taken, spelledTaken, takes⟩ := exists_spells_of_mem_ways (List.mem_of_mem_head? head)
    have rest := congrArg List.length takes.rest
    rw [Place.inText_append] at rest
    simp only [List.length_append, length_of_spells_yearPair spelled,
      length_of_spells_yearPair spelledTaken] at rest
    simp only [Place.isWithin, decide_eq_true_eq]
    omega
  have moved := occurrencesAt_cut not_spells_nil_yearPair allows alike nonempty within
  change yearPair.occurrencesAt true _ = (yearPair.occurrencesAt true _).map _ at moved
  rw [moved]
  refine List.mem_map.mpr ⟨_, atStart, ?_⟩
  simp [Occurrence.moved, Nat.add_comm]

/-- A pair of years is found wherever no word goes on at its ends and no hyphen comes before it. -/
theorem mem_occurrences_yearPair (found : m ∈ yearPair.occurrences true text)
    (before : ∀ c ∈ left.getLast?, isWord c = false ∧ face c ≠ '-')
    (behind : right.head?.any isWord = false) :
    { m with start := left.length, stop := left.length + m.text.length } ∈
      yearPair.occurrences true (left ++ (m.text ++ right)) := by
  have wordless : left.getLast?.any isWord = false := by
    cases last : left.getLast? with
    | none => rfl
    | some c => exact (before c last).1
  apply mem_occurrences_of_free (by simp) (mem_occurrencesAt_yearPair found wordless behind)
  intro other mem starts
  by_contra reaches
  rw [Nat.not_le] at reaches
  -- The last character before the pair would be the hyphen of the other one.
  have lies := (yearPair.occurrences_inOrder true _).liesIn other mem
  have inRange : left.length - 1 < left.length := by omega
  have last : left.getLast? = some left[left.length - 1] := by
    rw [List.getLast?_eq_getElem?, List.getElem?_eq_getElem inRange]
  have inOther : left[left.length - 1] ∈ other.text := by
    rw [lies.text_eq]
    apply List.mem_iff_getElem?.mpr
    refine ⟨left.length - 1 - other.start, ?_⟩
    rw [List.getElem?_take_of_lt (by omega), List.getElem?_drop,
      show other.start + (left.length - 1 - other.start) = left.length - 1 by omega,
      List.getElem?_append_left inRange, List.getElem?_eq_getElem inRange]
  obtain ⟨noWord, noHyphen⟩ := before _ last
  exact noHyphen (face_eq_of_mem_yearPair (spells_of_mem_occurrences mem).1 inOther noWord)

/-- Where a pattern takes one hyphen at most and its texts begin with no digit, a pair of years in
one of them comes behind a character that is neither part of a word nor a hyphen. -/
theorem exists_before_yearPair {pattern : Pattern} (drawn : pattern.hasOutline = true)
    (once : pattern.most '-' = some 1)
    (noDigit : (pattern.profile.ends.all fun (first, _) => first != '0') = true)
    (spelled : pattern.Spells true text) (found : m ∈ yearPair.occurrences true text) :
    ∃ c, (text.take m.start).getLast? = some c ∧ isWord c = false ∧ face c ≠ '-' := by
  have lies := (yearPair.occurrences_inOrder true text).liesIn m found
  have whole := isWhole_of_mem asksForWords_yearPair found
  have parts : text = text.take m.start ++ (m.text ++ text.drop m.stop) := by
    rw [← lies.drop_start, List.take_append_drop]
  obtain ⟨first, hyphen, second, pair, firstLength, _, digits, hyphenFace⟩ :=
    exists_of_spells_yearPair (spells_of_mem_occurrences found).1
  cases last : (text.take m.start).getLast? with
  | none =>
      exfalso
      rw [List.getLast?_eq_none_iff.mp last, List.nil_append, pair] at parts
      cases first with
      | nil => cases firstLength
      | cons c others =>
          have fits := fits_profile drawn spelled
          rw [parts] at fits
          have atEnds := fits.ends c rfl _
            (List.getLast?_eq_getLast_of_ne_nil (List.cons_ne_nil _ _))
          have other := List.all_eq_true.mp noDigit _ atEnds
          rw [Text.face_of_isDigit (digits c List.mem_cons_self)] at other
          cases other
  | some c =>
      refine ⟨c, rfl, ?_, ?_⟩
      · have before := whole.before
        rwa [last] at before
      · intro hyphenBefore
        have count := countP_face_le drawn once spelled
        have here : 0 < (text.take m.start).countP (face · == '-') :=
          List.countP_pos_iff.mpr ⟨c, List.mem_of_getLast? last, beq_iff_eq.mpr hyphenBefore⟩
        have there : 0 < m.text.countP (face · == '-') :=
          List.countP_pos_iff.mpr ⟨hyphen, by simp [pair], beq_iff_eq.mpr hyphenFace⟩
        rw [parts, List.countP_append, List.countP_append] at count
        omega

end Pattern

end FilmQuery
