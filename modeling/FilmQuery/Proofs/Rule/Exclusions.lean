/-
# Exclusions and genres

An exclusion is a word such as `no` with blanks and a genre behind it, and the genre alone is the
phrase of the next rule.  No phrase of an earlier rule takes anything of the word and the blanks
(`stop_le_or_le_start`): it does not begin there, and if it begins before, it ends before, since it
ends with a word or a sign and has no word in it that excludes.  Where there is an exclusion, it is
found along with its genre (`exists_excludedGenre_at`), and the genre is the one that would be found
without it.
-/
import FilmQuery.Proofs.Pattern.Noting
import FilmQuery.Proofs.Pattern.Reaching
import FilmQuery.Proofs.Pattern.Runs
import FilmQuery.Proofs.Pattern.Spellings
import FilmQuery.Proofs.Pattern.Uncased
import FilmQuery.Proofs.Rule.Forms

namespace FilmQuery

open Text (isBlank isWord uncased)

/-- The words that exclude a genre. -/
def exclusionWords : List String := ["no", "without", "not", "except"]

namespace Pattern

/-- A word that excludes. -/
def exclusion : Pattern := .ofText "no|without|not|except".toList

/-- Blanks, and at least one of them. -/
def blanks : Pattern := .repeated 1 none true blank

/-- A word for a genre. -/
def genreWord : Pattern := .ofText Catalog.genreWords.toList

/-- A genre that is noted, and the end of its word. -/
def genreNoted : Pattern := .seq (.group 1 genreWord) .boundary

/-- A genre. -/
def genre : Pattern := .seq .boundary genreNoted

/-- A genre that is excluded. -/
def excludedGenre : Pattern := .seq .boundary (.seq exclusion (.seq blanks genreNoted))

/-- Whether the texts of a pattern contain no word that excludes, and end with the end of a word or
without one. -/
def keepsOff (pattern : Pattern) : Bool :=
  pattern.hasOutline && exclusion.isForeignTo pattern &&
    (pattern.sealsWord || pattern.opensWord && pattern.profile.ends.all (!isWord ·.2))

theorem exclusion_checked :
    exclusion.isFree = true ∧ exclusion.isSolid = true ∧ exclusion.hasOutline = true ∧
      (exclusion.profile.ends.all (isWord ·.1) = true ∧
        exclusion.profile.joints.all (isWord ·.2) = true) ∧
        exclusionWords.all (fun word =>
          word.toList.all isWord && word.toList != [] &&
            (exclusion.ways true (.inText word.toList 0)).any (·.rest == [])) = true := by
  decide +kernel

theorem genreWord_checked :
    genreWord.isFree = true ∧ genreWord.tellsWords = true ∧ genreWord.opensWord = true ∧
      genreWord.closesWord = true ∧ genreWord.hasOutline = true ∧
        exclusion.isForeignTo genreWord = true := by
  simp only [genreWord]
  delta Catalog.genreWords
  simp only [String.toList_append, String.reduceToList]
  decide +kernel

theorem genres_checked :
    excludedGenre.sealsWord = true ∧ excludedGenre.groupCount = 1 ∧
      genre.sealsWord = true ∧ genre.groupCount = 1 := by
  simp only [excludedGenre, genre, genreNoted, genreWord]
  delta Catalog.genreWords
  simp only [String.toList_append, String.reduceToList]
  decide +kernel

/-- A word that excludes is a word in which nothing is open but the case of its letters. -/
theorem spells_exclusion {word : List Char} (excludes : Part.IsOneOf exclusionWords word) :
    exclusion.Spells true word ∧ (∀ c ∈ word, isWord c = true) ∧ word ≠ [] := by
  obtain ⟨small, listed, same⟩ := excludes
  have checked := List.all_eq_true.mp exclusion_checked.2.2.2.2 small listed
  simp only [Bool.and_eq_true, bne_iff_ne, List.any_eq_true, beq_iff_eq] at checked
  obtain ⟨⟨letters, some⟩, q, way, atEnd⟩ := checked
  refine ⟨?_, fun c mem => ?_, ?_⟩
  · have place : Place.inText small.toList 0 = (Place.inText word 0).uncased := by
      rw [← same]
      rfl
    rw [place, ways_uncased] at way
    obtain ⟨r, toR, rfl⟩ := List.mem_map.mp way
    obtain ⟨taken, spelled, takes⟩ := exists_spells_of_mem_ways toR
    have rest : word = taken ++ r.rest := takes.rest
    rwa [rest, List.map_eq_nil_iff.mp atEnd, List.append_nil]
  · rw [← Text.isWord_toLower]
    exact List.all_eq_true.mp letters _ (same ▸ List.mem_map_of_mem mem)
  · rintro rfl
    exact some same.symm

theorem isGap_of_spells {text : List Char} (spelled : blanks.Spells true text) :
    Part.IsGap text := by
  refine ⟨ne_nil_of_isSolid rfl spelled, ?_⟩
  obtain ⟨parts, single, _, _, rfl⟩ := spelled
  intro c mem
  obtain ⟨part, inParts, inPart⟩ := List.mem_flatten.mp mem
  obtain ⟨d, rfl, has⟩ := single part inParts
  rw [List.mem_singleton.mp inPart]
  simpa [isIn, CharClass.has] using has

theorem spells_of_isGap {gap : List Char} (isGap : Part.IsGap gap) : blanks.Spells true gap := by
  refine ⟨gap.map fun c => [c], ?_, ?_, by simp, by simp [← List.flatMap_def]⟩
  · intro part mem
    obtain ⟨c, inGap, rfl⟩ := List.mem_map.mp mem
    exact ⟨c, rfl, by simp [isIn, CharClass.has, isGap.blank c inGap]⟩
  · rw [List.length_map]
    exact List.length_pos_iff.mpr isGap.nonempty

/-- An excluded genre is spelled with a word that excludes, blanks, and the genre, which is noted.
-/
theorem exists_of_spellsWith_excludedGenre {text : List Char} {notes : List (Nat × List Char)}
    (spelled : excludedGenre.SpellsWith true text notes) :
    ∃ word gap genre, exclusion.Spells true word ∧ Part.IsGap gap ∧ genreWord.Spells true genre ∧
      text = word ++ (gap ++ genre) ∧ ∃ inner, notes = (1, genre) :: inner := by
  obtain ⟨_, _, _, _, ⟨rfl, _⟩, ⟨word, _, _, _, ofWord, ⟨gap, _, _, _, ofGap,
    ⟨genre, _, _, _, ⟨inner, ofGenre, rfl⟩, ⟨rfl, none⟩, rfl, rfl⟩, rfl, rfl⟩, rfl, rfl⟩,
    rfl, rfl⟩ := spelled
  rw [none rfl]
  exact ⟨word, gap, genre, ofWord.spells, isGap_of_spells ofGap.spells, ofGenre.spells, by simp,
    _, rfl⟩

/-- A genre is spelled with a word for it, which is noted. -/
theorem exists_of_spellsWith_genre {text : List Char} {notes : List (Nat × List Char)}
    (spelled : genre.SpellsWith true text notes) :
    genreWord.Spells true text ∧ ∃ inner, notes = (1, text) :: inner := by
  obtain ⟨_, _, _, _, ⟨rfl, _⟩, ⟨genre, _, _, _, ⟨inner, ofGenre, rfl⟩, ⟨rfl, none⟩, rfl, rfl⟩, rfl,
    rfl⟩ := spelled
  rw [none rfl, List.nil_append, List.append_nil]
  exact ⟨ofGenre.spells, _, rfl⟩

theorem isWord_of_spells {word : List Char} (spelled : exclusion.Spells true word) :
    ∀ c ∈ word, isWord c = true := by
  have fits := fits_profile exclusion_checked.2.2.1 spelled
  obtain ⟨ends, joints⟩ := exclusion_checked.2.2.2.1
  apply fits.joints.induction (isWord · = true) word
  · intro c d joint _
    rw [← Text.isWord_face]
    exact List.all_eq_true.mp joints _ joint
  · intro nonempty
    rw [← Text.isWord_face]
    exact List.all_eq_true.mp ends _ (fits.ends _ (List.head?_eq_some_head nonempty) _
      (List.getLast?_eq_getLast_of_ne_nil nonempty))

/-- There are no blanks in a word that excludes. -/
theorem isBlank_eq_false_of_spells {word : List Char} (spelled : exclusion.Spells true word) :
    ∀ c ∈ word, isBlank c = false :=
  fun c mem => Text.isBlank_eq_false_of_isWord (isWord_of_spells spelled c mem)

section Excluded

variable {word gap genre left right : List Char}

theorem head?_isBlank_of_genreWord (spelled : genreWord.Spells true genre) (right : List Char) :
    (genre ++ right).head?.any isBlank = false := by
  have opens := head?_isWord_of_opensWord genreWord_checked.2.2.1 spelled
  cases genre with
  | nil => cases opens
  | cons c genre => exact Text.isBlank_eq_false_of_isWord (by simpa using opens)

theorem head?_isBlank_of_isGap (isGap : Part.IsGap gap) (right : List Char) :
    (gap ++ right).head?.any (!isBlank ·) = false := by
  obtain ⟨c, more, rfl⟩ := List.exists_cons_of_ne_nil isGap.nonempty
  simp [isGap.blank c List.mem_cons_self]

variable {p q : Place}

/-- Where a genre is excluded, there is a way to take it. -/
theorem exists_way_excludedGenre (excludes : Part.IsOneOf exclusionWords word)
    (isGap : Part.IsGap gap) (spelled : genreWord.Spells true genre)
    (rest : p.rest = word ++ (gap ++ (genre ++ right))) (quiet : p.previous.any isWord = false)
    (ends : right.head?.any isWord = false) : ∃ q, q ∈ excludedGenre.ways true p := by
  obtain ⟨ofWord, letters, nonempty⟩ := spells_exclusion excludes
  have begins : p.isBoundary = true := by
    obtain ⟨c, others, rfl⟩ := List.exists_cons_of_ne_nil nonempty
    rw [Place.isBoundary, quiet, rest, List.cons_append, List.head?_cons, Option.any_some,
      letters c List.mem_cons_self]
    rfl
  obtain ⟨r, toR, reach⟩ := exists_mem_ways_of_spells exclusion_checked.1 ofWord rest
  have restR := List.append_cancel_left (reach.rest.symm.trans rest)
  obtain ⟨s, toS, reachS⟩ := exists_mem_ways_of_spells rfl (spells_of_isGap isGap) restR
  have restS := List.append_cancel_left (reachS.rest.symm.trans restR)
  have free : (group 1 genreWord).isFree = true := genreWord_checked.1
  obtain ⟨t, toT, reachT⟩ := exists_mem_ways_of_spells free spelled restS
  have restT := List.append_cancel_left (reachT.rest.symm.trans restS)
  have atEnd : t.isBoundary = true := by
    obtain ⟨c, last, word⟩ := (Option.any_eq_true _ _).mp
      (getLast?_isWord_of_closesWord genreWord_checked.2.2.2.1 spelled)
    rw [Place.isBoundary, reachT.previous, last, restT, ends, Option.some_or, Option.any_some, word]
    rfl
  refine ⟨t, List.mem_flatMap.mpr ⟨p, ?_, List.mem_flatMap.mpr ⟨r, toR,
    List.mem_flatMap.mpr ⟨s, toS, List.mem_flatMap.mpr ⟨t, toT, ?_⟩⟩⟩⟩⟩
  · rw [ways, if_pos begins]
    exact List.mem_singleton_self p
  · rw [ways, if_pos atEnd]
    exact List.mem_singleton_self t

/-- However a genre that is excluded is taken, its word, its blanks and the genre end where they
do, and the genre is noted. -/
theorem takes_of_mem_ways_excludedGenre (excludes : Part.IsOneOf exclusionWords word)
    (isGap : Part.IsGap gap) (spelled : genreWord.Spells true genre)
    (rest : p.rest = word ++ (gap ++ (genre ++ right))) (ends : right.head?.any isWord = false)
    (way : q ∈ excludedGenre.ways true p) :
    p.Takes (word ++ (gap ++ genre)) q ∧ ∃ inner, q.said = (1, genre) :: inner ++ p.said := by
  obtain ⟨text, notes, spelledWith, takes, noted⟩ := exists_spellsWith_of_mem_ways way
  obtain ⟨word', gap', genre', ofWord', isGap', ofGenre', rfl, inner, rfl⟩ :=
    exists_of_spellsWith_excludedGenre spelledWith
  have same : word ++ (gap ++ (genre ++ right)) = word' ++ (gap' ++ (genre' ++ q.rest)) := by
    rw [← rest, takes.rest, List.append_assoc, List.append_assoc]
  have solid {word : List Char} (ofWord : exclusion.Spells true word) :
      ∀ c ∈ word, (!isBlank c) = true := fun c mem => by
    rw [isBlank_eq_false_of_spells ofWord c mem, Bool.not_false]
  obtain ⟨rfl, sameGap⟩ := append_inj_of_all (!isBlank ·) same
    (solid (spells_exclusion excludes).1) (solid ofWord') (head?_isBlank_of_isGap isGap _)
    (head?_isBlank_of_isGap isGap' _)
  obtain ⟨rfl, sameGenre⟩ := append_inj_of_all isBlank sameGap isGap.blank isGap'.blank
    (head?_isBlank_of_genreWord spelled _) (head?_isBlank_of_genreWord ofGenre' _)
  -- The two genres could only differ if one of them did not end with a word.
  have closes := getLast?_isWord_of_closesWord genreWord_checked.2.2.2.1 spelled
  have closes' := getLast?_isWord_of_closesWord genreWord_checked.2.2.2.1 ofGenre'
  have ends' : q.rest.head?.any isWord = false := by
    obtain ⟨r, last⟩ := exists_mem_ways_tip way
    have atEnd : q.isBoundary = true := isBoundary_of_mem_ways last
    obtain ⟨c, lastEq, isWord⟩ := (Option.any_eq_true _ _).mp closes'
    rw [Place.isBoundary, takes.previous, List.getLast?_append, List.getLast?_append, lastEq,
      Option.some_or, Option.some_or, Option.some_or, Option.any_some, isWord] at atEnd
    simpa using atEnd
  obtain rfl : genre = genre' :=
    eq_of_append_eq genreWord_checked.2.1 spelled ofGenre' closes closes' sameGenre ends ends'
  exact ⟨takes, inner, noted⟩

/-- Where a genre is excluded, this is what is found there. -/
theorem exists_excludedGenre_at (quiet : left.getLast?.any isWord = false)
    (excludes : Part.IsOneOf exclusionWords word) (isGap : Part.IsGap gap)
    (spelled : genreWord.Spells true genre) (ends : right.head?.any isWord = false) :
    ∃ m ∈ excludedGenre.occurrencesAt true
        (.inText (left ++ (word ++ (gap ++ (genre ++ right)))) left.length),
      m.start = left.length ∧ m.stop = left.length + (word ++ (gap ++ genre)).length ∧
        m.groupCount = 1 ∧ ∃ inner, m.captures = (1, genre) :: inner := by
  rw [Place.inText_append]
  generalize placeEq :
    (⟨left.getLast?, left.length, word ++ (gap ++ (genre ++ right)), []⟩ : Place) = p
  have rest : p.rest = word ++ (gap ++ (genre ++ right)) := placeEq ▸ rfl
  obtain ⟨q, way⟩ :=
    exists_way_excludedGenre excludes isGap spelled rest (placeEq ▸ quiet) ends
  obtain ⟨q, first⟩ : ∃ q, (excludedGenre.ways true p).head? = some q :=
    ⟨_, List.head?_eq_some_head (List.ne_nil_of_mem way)⟩
  obtain ⟨takes, inner, noted⟩ := takes_of_mem_ways_excludedGenre excludes isGap spelled rest ends
    (List.mem_of_head? first)
  have solid : ¬ excludedGenre.Spells true [] := fun nothing =>
    ne_nil_of_isSolid (by decide +kernel) nothing rfl
  refine ⟨excludedGenre.occurrenceBetween p q, ?_, ?_, ?_, ?_, inner, ?_⟩
  · rw [occurrencesAt_eq solid, first]
    exact List.mem_singleton_self _
  · rw [← placeEq]
    rfl
  · rw [← placeEq] at takes
    exact takes.position
  · exact genres_checked.2.1
  · show q.said = _
    rw [noted, ← placeEq]
    exact List.append_nil _

end Excluded

/-- What stands alone begins with a word, and no word goes on in front of it. -/
theorem begins_of_standsAlone {pattern : Pattern} {text : List Char} {m : Occurrence}
    (alone : pattern.standsAlone = true) (found : m ∈ pattern.occurrences true text) :
    (text.take m.start).getLast?.any isWord = false ∧ m.text.head?.any isWord = true := by
  unfold standsAlone at alone
  split at alone
  next rest =>
    simp only [Bool.and_eq_true] at alone
    have opens := head?_isWord_of_opensWord alone.1.1 (spells_of_mem_occurrences found).1
    exact ⟨isWord_before_eq_false found opens, opens⟩
  next => cases alone

section Clear

variable {text left word gap behind : List Char} {m : Occurrence}

/-- An occurrence that begins with a word and not within one begins neither in a word nor in the
blanks behind it. -/
theorem le_start_of_lt_start (lies : m.LiesIn text)
    (split : text = left ++ (word ++ (gap ++ behind)))
    (letters : ∀ c ∈ word, isWord c = true) (blank : ∀ c ∈ gap, isBlank c = true)
    (before : (text.take m.start).getLast?.any isWord = false)
    (opens : m.text.head?.any isWord = true) (inside : left.length < m.start) :
    left.length + word.length + gap.length ≤ m.start := by
  by_contra start
  rcases Nat.lt_or_ge m.start (left.length + word.length) with inWord | inGap
  · have last : (text.take m.start).getLast? = word[m.start - 1 - left.length]? := by
      rw [List.getLast?_take, if_neg (by omega), split, List.getElem?_append_right (by omega),
        List.getElem?_append_left (by omega), List.getElem?_eq_getElem (by omega), Option.some_or]
    rw [last, List.getElem?_eq_getElem (by omega), Option.any_some,
      letters _ (List.getElem_mem _)] at before
    cases before
  · have head : (text.drop m.start).head? = gap[m.start - left.length - word.length]? := by
      rw [List.head?_drop, split, List.getElem?_append_right (by omega),
        List.getElem?_append_right (by omega), List.getElem?_append_left (by omega)]
    obtain ⟨c, first, isWord⟩ := (Option.any_eq_true _ _).mp opens
    rw [lies.drop_start, List.head?_append, first, Option.some_or] at head
    have isBlank := blank c (List.mem_of_getElem? head.symm)
    rw [Text.isBlank_eq_false_of_isWord isWord] at isBlank
    cases isBlank

/-- An occurrence that does not end within a word and does not have the word in it ends in front of
the word if it begins there. -/
theorem stop_le_of_start_le (lies : m.LiesIn text) (split : text = left ++ (word ++ behind))
    (letters : ∀ c ∈ word, isWord c = true)
    (ends : m.text.getLast?.any isWord = true → (text.drop m.stop).head?.any isWord = false)
    (reached : m.start ≤ left.length)
    (apart : ∀ more, m.text ≠ left.drop m.start ++ (word ++ more)) : m.stop ≤ left.length := by
  by_contra stop
  have drop : left.drop m.start ++ word ++ behind = m.text ++ text.drop m.stop := by
    rw [← lies.drop_start, split, List.drop_append_of_le_length reached, List.append_assoc]
  have length : m.text.length = m.stop - m.start := by
    have within := lies.stop_le_length
    rw [lies.text_eq, List.length_take, List.length_drop]
    omega
  rcases List.append_eq_append_iff.mp drop with ⟨more, textEq, _⟩ | ⟨more, parts, rest⟩
  · exact apart more (by rw [textEq, List.append_assoc])
  · -- The occurrence ends somewhere in the word.
    obtain ⟨first, textEq, wordEq⟩ : ∃ first, m.text = left.drop m.start ++ first ∧
        word = first ++ more := by
      rcases List.append_eq_append_iff.mp parts with found | ⟨others, frontEq, _⟩
      · exact found
      · have lengths := congrArg List.length frontEq
        rw [List.length_append, List.length_drop] at lengths
        omega
    cases more with
    | nil => exact apart [] (by rw [textEq, wordEq, List.append_nil, List.append_nil])
    | cons d more =>
        obtain ⟨c, last⟩ : ∃ c, first.getLast? = some c := by
          have lengths := congrArg List.length textEq
          rw [List.length_append, List.length_drop] at lengths
          exact ⟨_, List.getLast?_eq_getLast_of_ne_nil (List.ne_nil_of_length_pos (by omega))⟩
        have follows := ends (by
          rw [textEq, List.getLast?_append, last, Option.some_or, Option.any_some]
          exact letters c (wordEq ▸ List.mem_append_left _ (List.mem_of_getLast? last)))
        rw [rest, List.cons_append, List.head?_cons, Option.any_some, letters d (by simp [wordEq])]
          at follows
        cases follows

variable {pattern : Pattern}

/-- No phrase of a pattern that keeps off ends within a word. -/
theorem isWord_behind_of_keepsOff (off : pattern.keepsOff = true)
    (found : m ∈ pattern.occurrences true text) (closes : m.text.getLast?.any isWord = true) :
    (text.drop m.stop).head?.any isWord = false := by
  simp only [keepsOff, Bool.and_eq_true, Bool.or_eq_true] at off
  obtain ⟨⟨drawn, _⟩, seals | ⟨opens, wordless⟩⟩ := off
  · exact isWord_behind_eq_false seals found
  · simp only [opensWord, Bool.and_eq_true, Bool.not_eq_true'] at opens
    obtain ⟨c, d, _, last, atEnds⟩ :=
      exists_ends_of_spells drawn opens.1.2 (spells_of_mem_occurrences found).1
    have apart := List.all_eq_true.mp wordless _ atEnds
    rw [last, Option.any_some, ← Text.isWord_face] at closes
    simp [closes] at apart

/-- No phrase of a pattern that keeps off has a word in it that excludes. -/
theorem ne_append_of_keepsOff (off : pattern.keepsOff = true) (spelled : pattern.Spells true text)
    (ofWord : exclusion.Spells true word) (front more : List Char) :
    text ≠ front ++ (word ++ more) := by
  simp only [keepsOff, Bool.and_eq_true] at off
  obtain ⟨⟨drawn, foreign⟩, _⟩ := off
  intro textEq
  exact not_spells_of_isForeignTo exclusion_checked.2.2.1 drawn foreign spelled
    ⟨front, more, by rw [textEq, List.append_assoc]⟩ ofWord

/-- No phrase of a pattern that keeps off reaches into a word that excludes or into the blanks
behind it. -/
theorem stop_le_or_le_start (alone : pattern.standsAlone = true) (off : pattern.keepsOff = true)
    (found : m ∈ pattern.occurrences true text) (split : text = left ++ (word ++ (gap ++ behind)))
    (excludes : Part.IsOneOf exclusionWords word) (isGap : Part.IsGap gap) :
    m.stop ≤ left.length ∨ left.length + word.length + gap.length ≤ m.start := by
  obtain ⟨ofWord, letters, _⟩ := spells_exclusion excludes
  have lies := (pattern.occurrences_inOrder true text).liesIn m found
  have spelled := (spells_of_mem_occurrences found).1
  rcases Nat.lt_or_ge left.length m.start with inside | reached
  · right
    obtain ⟨before, opens⟩ := begins_of_standsAlone alone found
    exact le_start_of_lt_start lies split letters isGap.blank before opens inside
  · left
    exact stop_le_of_start_le lies split letters (isWord_behind_of_keepsOff off found) reached
      (ne_append_of_keepsOff off spelled ofWord _)

/-- A genre that is excluded has no other word in it that excludes, except for one that begins
within a word. -/
theorem ne_append_of_excludedGenre {notes : List (Nat × List Char)} {front : List Char}
    (spelled : excludedGenre.SpellsWith true text notes) (ofWord : exclusion.Spells true word)
    (some : front ≠ []) (quiet : front.getLast?.any isWord = false) (more : List Char) :
    text ≠ front ++ (word ++ more) := by
  obtain ⟨first, gap, genre, ofFirst, isGap, ofGenre, rfl, _⟩ :=
    exists_of_spellsWith_excludedGenre spelled
  have notInGenre (front : List Char) : genre ≠ front ++ (word ++ more) := by
    intro genreEq
    exact not_spells_of_isForeignTo exclusion_checked.2.2.1 genreWord_checked.2.2.2.2.1
      genreWord_checked.2.2.2.2.2 ofGenre ⟨front, more, by rw [genreEq, List.append_assoc]⟩ ofWord
  intro same
  rcases List.append_eq_append_iff.mp same with ⟨others, _, rest⟩ | ⟨others, firstEq, _⟩
  · rcases List.append_eq_append_iff.mp rest with ⟨others', _, genreEq⟩ | ⟨others', gapEq, wordEq⟩
    · exact notInGenre _ genreEq
    · -- The blanks would end where the word begins.
      cases others' with
      | nil => exact notInGenre [] wordEq.symm
      | cons c others' =>
          have blank := isGap.blank c (by simp [gapEq])
          cases word with
          | nil => exact ne_nil_of_isSolid exclusion_checked.2.1 ofWord rfl
          | cons d word =>
              obtain rfl : d = c := (List.cons.inj wordEq).1
              rw [isBlank_eq_false_of_spells ofWord d List.mem_cons_self] at blank
              cases blank
  · -- The first word that excludes would go on in front of the other one.
    have last := List.getLast?_eq_getLast_of_ne_nil some
    rw [last, Option.any_some, isWord_of_spells ofFirst _
      (firstEq ▸ List.mem_append_left _ (List.getLast_mem some))] at quiet
    cases quiet

/-- A genre that is excluded ends in front of a word that excludes, if it begins there. -/
theorem stop_le_of_excludedGenre (found : m ∈ excludedGenre.occurrences true text)
    (split : text = left ++ (word ++ behind)) (quiet : left.getLast?.any isWord = false)
    (excludes : Part.IsOneOf exclusionWords word) (before : m.start < left.length) :
    m.stop ≤ left.length := by
  obtain ⟨ofWord, letters, _⟩ := spells_exclusion excludes
  have lies := (excludedGenre.occurrences_inOrder true text).liesIn m found
  have some : left.drop m.start ≠ [] := by
    rw [ne_eq, List.drop_eq_nil_iff]
    omega
  have last : (left.drop m.start).getLast? = left.getLast? := by
    rw [List.getLast?_drop, if_neg (by omega)]
  exact stop_le_of_start_le lies split letters
    (fun _ => isWord_behind_eq_false genres_checked.1 found) (Nat.le_of_lt before)
    (ne_append_of_excludedGenre (spellsWith_of_mem_occurrences found) ofWord some (last ▸ quiet))

end Clear

end Pattern

namespace DefaultRules

theorem genres_listed :
    records[17]? = some (.genreExclude, .excludedGenre) ∧ records[18]? = some (.genre, .genre) ∧
      (∀ k < records.length, (records[k]?.any fun entry => entry.1 == .genre) = true → k = 18) ∧
        ∀ entry ∈ records.take 17, entry.2.keepsOff = true := by
  simp only [records, all, contentTypes, years, ratings, providers, genres, regions, List.map_cons,
    List.map_nil, List.cons_append, List.nil_append, reading_shape, meaning_shape, naming_shape,
    located_shape, phrase_text, reading_kind, meaning_kind, naming_kind, located_kind, rating,
    Pattern.excludedGenre, Pattern.genre, Pattern.genreNoted, Pattern.genreWord]
  delta Catalog.genreWords
  simp only [String.toList_append, String.reduceToList]
  decide +kernel

end DefaultRules

end FilmQuery
