/-
# Taking whole words out

Pieces that begin and end with a word can be taken out of a text where no word goes on at their
ends (`Sheds`).  What is left has gaps then, but no gap tears a phrase in which no two neighbours
are both outside of words: such a phrase stands in the text before just as it stands in what is
left, with the same neighbours (`Sheds.exists_split`).
-/
import FilmQuery.Proofs.Pattern.Whole
import FilmQuery.Proofs.Query.Excision

namespace FilmQuery

open Text (isWord)

namespace PlacedText

/-- Whether a text begins inside of a word. -/
def opens (text : PlacedText) : Bool := text.head?.any fun x => isWord x.2

/-- Whether a text ends inside of a word. -/
def closes (text : PlacedText) : Bool := text.getLast?.any fun x => isWord x.2

/-- The second text is what is left of the first one when pieces are taken out that begin and end
with a word, each where no word goes on at its ends. -/
inductive Sheds : PlacedText → PlacedText → Prop
  | done (text : PlacedText) : Sheds text text
  | piece {left piece right rest : PlacedText} (before : left.closes = false)
      (opens : piece.opens = true) (closes : piece.closes = true) (behind : right.opens = false)
      (later : Sheds right rest) : Sheds (left ++ piece ++ right) (left ++ rest)

/-- A phrase begins and ends with a word, and of two neighbours in it one is part of a word. -/
structure IsLinked (phrase : PlacedText) : Prop where
  opens : phrase.opens = true
  closes : phrase.closes = true
  linked : phrase.IsChain fun x y => isWord x.2 = true ∨ isWord y.2 = true

variable {text rest left right first second : PlacedText}

theorem opens_eq_chars (text : PlacedText) : text.opens = text.chars.head?.any isWord := by
  rw [opens, chars, List.head?_map, Option.any_map]

theorem closes_eq_chars (text : PlacedText) : text.closes = text.chars.getLast?.any isWord := by
  rw [closes, chars, List.getLast?_map, Option.any_map]

theorem opens_append (nonempty : first ≠ []) : opens (first ++ second) = first.opens := by
  rw [opens, List.head?_append_of_ne_nil _ nonempty]
  rfl

theorem closes_append (nonempty : second ≠ []) : closes (first ++ second) = second.closes := by
  rw [closes, List.getLast?_append_of_ne_nil _ nonempty]
  rfl

theorem ne_nil_of_opens (opens : first.opens = true) : first ≠ [] := by
  rintro rfl
  cases opens

theorem ne_nil_of_closes (closes : first.closes = true) : first ≠ [] := by
  rintro rfl
  cases closes

theorem opens_eq_false_of_append (quiet : opens (first ++ second) = false) :
    first.opens = false := by
  by_cases empty : first = []
  · rw [empty]
    rfl
  · rwa [opens_append empty] at quiet

theorem opens_append_eq_false (here : first.opens = false) (behind : second.opens = false) :
    opens (first ++ second) = false := by
  by_cases empty : first = []
  · rwa [empty]
  · rwa [opens_append empty]

theorem closes_eq_false_of_append (quiet : closes (first ++ second) = false) :
    second.closes = false := by
  by_cases empty : second = []
  · rw [empty]
    rfl
  · rwa [closes_append empty] at quiet

/-- Wherever a linked phrase is divided, there is a word on one side or on the other. -/
theorem IsLinked.closes_or_opens (linked : IsLinked (first ++ second)) :
    first.closes = true ∨ second.opens = true := by
  cases last : first.getLast? with
  | none =>
      right
      have opens := linked.opens
      rwa [List.getLast?_eq_none_iff.mp last] at opens
  | some x =>
      cases head : second.head? with
      | none =>
          left
          have closes := linked.closes
          rwa [List.head?_eq_none_iff.mp head, List.append_nil] at closes
      | some y =>
          simp only [PlacedText.closes, PlacedText.opens, last, head, Option.any_some]
          exact (List.isChain_append.mp linked.linked).2.2 x last y head

/-- If no word goes on at the beginning, nothing is taken out there. -/
theorem Sheds.head?_eq (sheds : Sheds text rest) (quiet : text.opens = false) :
    rest.head? = text.head? := by
  cases sheds with
  | done => rfl
  | @piece left piece right rest before opens closes behind later =>
      cases left with
      | nil =>
          rw [List.nil_append, opens_append (ne_nil_of_opens opens), opens] at quiet
          cases quiet
      | cons x left => rfl

theorem Sheds.opens_eq (sheds : Sheds text rest) (quiet : text.opens = false) :
    rest.opens = false := by
  rw [PlacedText.opens, sheds.head?_eq quiet]
  exact quiet

/-- No gap tears a linked phrase or comes to lie at its ends. -/
theorem Sheds.exists_split (sheds : Sheds text rest) {before phrase behind : PlacedText}
    (linked : phrase.IsLinked) (split : rest = before ++ (phrase ++ behind)) :
    ∃ left right, text = left ++ (phrase ++ right) ∧ left.getLast? = before.getLast? ∧
      right.head? = behind.head? := by
  induction sheds generalizing before with
  | done text => exact ⟨before, behind, split, rfl, rfl⟩
  | @piece left piece right rest quietBefore opens closes quietBehind later ih =>
      have quietRest : rest.opens = false := later.opens_eq quietBehind
      rcases List.append_eq_append_iff.mp split with
        ⟨others, beforeEq, restEq⟩ | ⟨others, leftEq, phraseEq⟩
      · -- The gap lies in front of the phrase.
        have apart : others ≠ [] := by
          rintro rfl
          rw [restEq, List.nil_append, opens_append (ne_nil_of_opens linked.opens), linked.opens]
            at quietRest
          cases quietRest
        obtain ⟨left', right', rightEq, last, head⟩ := ih restEq
        have apart' : left' ≠ [] := by
          rintro rfl
          exact apart (List.getLast?_eq_none_iff.mp last.symm)
        refine ⟨left ++ piece ++ left', right', ?_, ?_, head⟩
        · rw [rightEq, List.append_assoc _ left']
        · rw [beforeEq, List.getLast?_append_of_ne_nil _ apart, ← last,
            List.getLast?_append_of_ne_nil _ apart']
      · rcases List.append_eq_append_iff.mp phraseEq with
          ⟨between, othersEq, behindEq⟩ | ⟨ending, phraseEq', restEq⟩
        · -- The gap lies behind the phrase.
          have apart : between ≠ [] := by
            rintro rfl
            rw [leftEq, othersEq, List.append_nil, closes_append (ne_nil_of_closes linked.closes),
              linked.closes] at quietBefore
            cases quietBefore
          refine ⟨before, between ++ piece ++ right, ?_, rfl, ?_⟩
          · rw [leftEq, othersEq]
            simp only [List.append_assoc]
          · rw [behindEq, List.append_assoc, List.head?_append_of_ne_nil _ apart,
              List.head?_append_of_ne_nil _ apart]
        · -- The gap would lie in the phrase or at its beginning.
          rw [phraseEq'] at linked
          rw [leftEq] at quietBefore
          rw [restEq] at quietRest
          rcases linked.closes_or_opens with word | word
          · rw [closes_eq_false_of_append quietBefore] at word
            cases word
          · rw [opens_eq_false_of_append quietRest] at word
            cases word

/-- What lies between two places of a text begins and ends with a word, and no word goes on in front
of it or behind it. -/
structure IsWholeBetween (text : PlacedText) (start stop : Nat) : Prop where
  before : closes (text.take start) = false
  opens : opens ((text.drop start).take (stop - start)) = true
  closes : closes ((text.drop start).take (stop - start)) = true
  behind : PlacedText.opens (text.drop stop) = false

/-- What is whole in a text is whole in the last characters of it. -/
theorem IsWholeBetween.drop {n start stop : Nat} (whole : text.IsWholeBetween start stop)
    (reached : n ≤ start) (order : start ≤ stop) :
    IsWholeBetween (text.drop n) (start - n) (stop - n) := by
  have startEq : n + (start - n) = start := Nat.add_sub_cancel' reached
  have stopEq : n + (stop - n) = stop := Nat.add_sub_cancel' (reached.trans order)
  have length : stop - n - (start - n) = stop - start := Nat.sub_sub_sub_cancel_right reached
  constructor
  · have parts : text.take start = text.take n ++ (text.drop n).take (start - n) := by
      rw [← List.take_add, startEq]
    have before := whole.before
    rw [parts] at before
    exact closes_eq_false_of_append before
  · rw [List.drop_drop, startEq, length]
    exact whole.opens
  · rw [List.drop_drop, startEq, length]
    exact whole.closes
  · rw [List.drop_drop, stopEq]
    exact whole.behind

/-- Cutting whole pieces out is taking them out one by one. -/
theorem sheds_exciseFrom (done : Nat) {spans : List (Nat × Nat)} (text : PlacedText)
    (within : ∀ span ∈ spans, done ≤ span.1 ∧ span.1 ≤ span.2)
    (apart : spans.Pairwise fun first later => first.2 ≤ later.1)
    (whole : ∀ span ∈ spans, text.IsWholeBetween (span.1 - done) (span.2 - done)) :
    Sheds text (exciseFrom done spans text) := by
  induction spans generalizing done text with
  | nil => exact .done text
  | cons span spans ih =>
      obtain ⟨start, stop⟩ := span
      obtain ⟨⟨reached, order⟩, withinLater⟩ := List.forall_mem_cons.mp within
      obtain ⟨behind, apartLater⟩ := List.pairwise_cons.mp apart
      obtain ⟨here, wholeLater⟩ := List.forall_mem_cons.mp whole
      have later := ih stop (text.drop (stop - done))
        (fun span mem => ⟨behind span mem, (withinLater span mem).2⟩) apartLater ?_
      · have parts := text.take_append_between_append_drop (Nat.sub_le_sub_right order done)
        rw [← List.append_assoc] at parts
        have sheds := Sheds.piece here.before here.opens here.closes here.behind later
        rwa [parts] at sheds
      · intro span mem
        have moved := (wholeLater span mem).drop (Nat.sub_le_sub_right (behind span mem) done)
          (Nat.sub_le_sub_right (withinLater span mem).2 done)
        have reached' : done ≤ stop := reached.trans order
        rwa [Nat.sub_sub_sub_cancel_right reached', Nat.sub_sub_sub_cancel_right reached'] at moved

/-- An occurrence divides its text into what comes before it, its own characters, and the rest. -/
theorem exists_piece {m : Occurrence} (lies : m.LiesIn text.chars) :
    ∃ piece : PlacedText, piece.chars = m.text ∧
      text = text.take m.start ++ (piece ++ text.drop m.stop) := by
  refine ⟨(text.drop m.start).take (m.stop - m.start), ?_, ?_⟩
  · rw [lies.text_eq, chars, chars, List.map_take, List.map_drop]
  · exact (text.take_append_between_append_drop lies.start_le_stop).symm

/-- A whole occurrence lies between places of its text. -/
theorem isWholeBetween_of_isWhole {m : Occurrence} (lies : m.LiesIn text.chars)
    (whole : m.IsWhole text.chars) : text.IsWholeBetween m.start m.stop := by
  have piece : chars ((text.drop m.start).take (m.stop - m.start)) = m.text := by
    rw [lies.text_eq, chars, chars, List.map_take, List.map_drop]
  constructor
  · rw [closes_eq_chars, chars, List.map_take]
    exact whole.before
  · rw [opens_eq_chars, piece]
    exact whole.opens
  · rw [closes_eq_chars, piece]
    exact whole.closes
  · rw [opens_eq_chars, chars, List.map_drop]
    exact whole.behind

/-- A rule whose occurrences are whole takes whole words out. -/
theorem sheds_without {rule : Rule} (index run : Nat) (sorted : text.Sorted)
    (whole : ∀ m ∈ rule.shape.find text.chars, m.IsWhole text.chars) :
    Sheds text (text.without (rule.claims index run text)) := by
  rw [← rule.read_rest index run text sorted, Rule.read, excise]
  apply sheds_exciseFrom 0 text
  · intro span mem
    obtain ⟨m, found, rfl⟩ := Rule.exists_of_mem_spans mem
    exact ⟨Nat.zero_le _, ((rule.shape.find_inOrder text.chars).liesIn m found).start_le_stop⟩
  · exact rule.spans_apart text
  · intro span mem
    obtain ⟨m, found, rfl⟩ := Rule.exists_of_mem_spans mem
    exact isWholeBetween_of_isWhole ((rule.shape.find_inOrder text.chars).liesIn m found)
      (whole m found)

end PlacedText

end FilmQuery
