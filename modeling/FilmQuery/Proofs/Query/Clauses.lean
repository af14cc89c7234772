/-
# Clauses do not interact

Two clauses with a separator between them are read as if each stood alone: every rule contributes
what it contributes to the first clause and then, further on, what it contributes to the second.
The step is one rule on a text with a separator (`claims_separated`, `without_separated`); the
separator is never claimed, so it is still there for the next rule.
-/
import FilmQuery.Proofs.Query.Contribution
import FilmQuery.Proofs.Rule.Phrases

namespace FilmQuery

open PlacedText

/-- The identifier that another run gives `distance` characters further on. -/
def FragmentId.moved (run distance : Nat) : FragmentId → FragmentId
  | .made kind rule _ place => .made kind rule run (place + distance)
  | .named name => .named name

/-- The fragment that another run makes of the same phrase `distance` characters further on. -/
def Fragment.moved (run distance : Nat) (f : Fragment) : Fragment :=
  { f with id := f.id.moved run distance, offsets := f.offsets.map (· + distance) }

namespace PlacedText

/-- A text `distance` characters further on. -/
def moved (distance : Nat) (text : PlacedText) : PlacedText :=
  text.map fun (place, c) => (place + distance, c)

@[simp]
theorem moved_zero (text : PlacedText) : text.moved 0 = text := List.map_id text

@[simp]
theorem chars_moved (distance : Nat) (text : PlacedText) :
    (text.moved distance).chars = text.chars := by
  simp [chars, moved, Function.comp_def]

theorem placesBetween_moved (distance : Nat) (text : PlacedText) (start stop : Nat) :
    (text.moved distance).placesBetween start stop =
      (text.placesBetween start stop).map (· + distance) := by
  simp [placesBetween, moved, List.map_drop, List.map_take, Function.comp_def]

theorem ofText_append (left : List Char) (c : Char) (right : List Char) :
    ofText (left ++ c :: right) =
      ofText left ++ (left.length, c) :: (ofText right).moved (left.length + 1) := by
  have behind : right.zipIdx (left.length + 1) =
      right.zipIdx.map (Prod.map id (· + (left.length + 1))) := by
    rw [List.map_snd_add_zipIdx_eq_zipIdx]
  rw [ofText, List.zipIdx_append, List.zipIdx_cons, Nat.zero_add, behind, List.map_append,
    List.map_cons, List.map_map]
  simp [ofText, moved, Function.comp_def]

theorem placesBetween_append_left (left behind : PlacedText) {start stop : Nat}
    (within : stop ≤ left.length) :
    placesBetween (left ++ behind) start stop = left.placesBetween start stop := by
  simp only [placesBetween, ← List.drop_take, List.take_append_of_le_length within]

theorem placesBetween_append_right (left right : PlacedText) (x : Nat × Char) (start stop : Nat) :
    placesBetween (left ++ x :: right) (start + (left.length + 1)) (stop + (left.length + 1)) =
      right.placesBetween start stop := by
  rw [Nat.add_comm start, Nat.add_comm stop, ← placesBetween_drop, ← List.drop_drop,
    List.drop_left]
  rfl

/-- A fragment further on claims the same characters of the text further on. -/
theorem without_moved (run distance : Nat) (text : PlacedText) (fragments : List Fragment) :
    (text.moved distance).without (fragments.map (Fragment.moved run distance)) =
      (text.without fragments).moved distance := by
  rw [without, without, moved, moved, List.filter_map]
  congr 1
  refine List.filter_congr fun x _ => ?_
  simp [Fragment.moved, Function.comp_def]

theorem without_eq_self {text : PlacedText} {fragments : List Fragment}
    (apart : ∀ x ∈ text, ∀ f ∈ fragments, x.1 ∉ f.offsets) : text.without fragments = text :=
  List.filter_eq_self.mpr fun x mem => by simpa using apart x mem

/-- Fragments on one side of a character leave it and the other side as they are. -/
theorem without_separated {left right : PlacedText} {x : Nat × Char}
    (sorted : Sorted (left ++ x :: right)) {first second : List Fragment}
    (onLeft : ∀ f ∈ first, f.StandsOn left) (onRight : ∀ f ∈ second, f.StandsOn right) :
    without (left ++ x :: right) (first ++ second) =
      left.without first ++ x :: right.without second := by
  have places : (left.places ++ x.1 :: right.places).Pairwise (· < ·) := by
    simpa [Sorted, PlacedText.places] using sorted
  obtain ⟨_, behind, across⟩ := List.pairwise_append.mp places
  have onwards := (List.pairwise_cons.mp behind).1
  have leftAlone : (left.without first).without second = left.without first :=
    without_eq_self fun y mem f inSecond claimed =>
      Nat.lt_irrefl y.1 (across _ (List.mem_map_of_mem (mem_without.mp mem).1) _
        (List.mem_cons_of_mem _ ((onRight f inSecond).mem_places claimed)))
  have rightAlone : without (x :: right) first = x :: right :=
    without_eq_self fun y mem f inFirst claimed =>
      Nat.lt_irrefl y.1 (across _ ((onLeft f inFirst).mem_places claimed) _
        (List.mem_map_of_mem (f := Prod.fst) mem))
  have middleAlone : without [x] second = [x] :=
    without_eq_self fun y mem f inSecond claimed => by
      rw [List.mem_singleton.mp mem] at claimed
      exact Nat.lt_irrefl x.1 (onwards _ ((onRight f inSecond).mem_places claimed))
  calc
    _ = left.without (first ++ second) ++ without (x :: right) (first ++ second) :=
      List.filter_append ..
    _ = left.without first ++ without ([x] ++ right) second := by
      rw [without_append, without_append, leftAlone, rightAlone]
      rfl
    _ = left.without first ++ (without [x] second ++ right.without second) :=
      congrArg _ (List.filter_append ..)
    _ = _ := by
      rw [middleAlone]
      rfl

end PlacedText

namespace Rule

/-- A rule makes the same fragments of a text wherever it stands. -/
theorem claims_moved (rule : Rule) (index run run' distance : Nat) (text : PlacedText) :
    rule.claims index run (text.moved distance) =
      (rule.claims index run' text).map (Fragment.moved run distance) := by
  rw [claims, claims, List.map_filterMap, chars_moved]
  refine List.filterMap_congr fun m found => ?_
  have lies := (rule.shape.find_inOrder text.chars).liesIn m found
  have order := lies.start_le_stop
  have within := lies.stop_le_length
  rw [chars, List.length_map] at within
  unfold claim?
  cases rule.extract m with
  | error fault => rfl
  | ok value =>
      cases labelled : label rule.kind value m with
      | error fault => simp [labelled]
      | ok shown =>
          simp only [labelled, placesBetween_moved]
          split
          · rfl
          next taken =>
            have nonempty : text.placesBetween m.start m.stop ≠ [] := by
              rw [← List.length_pos_iff, placesBetween, List.length_map, List.length_take,
                List.length_drop]
              omega
            obtain ⟨place, rest, offsets⟩ := List.exists_cons_of_ne_nil nonempty
            simp [Fragment.moved, FragmentId.moved, offsets]

/-- What a rule makes of an occurrence depends on the characters of the occurrence alone. -/
theorem claim?_congr {rule : Rule} (index run : Nat) {text text' : PlacedText} {m m' : Occurrence}
    (extract : rule.extract m' = rule.extract m)
    (shown : ∀ value, label rule.kind value m' = label rule.kind value m)
    (empty : m'.start = m'.stop ↔ m.start = m.stop) (source : m'.text = m.text)
    (offsets : text'.placesBetween m'.start m'.stop = text.placesBetween m.start m.stop) :
    rule.claim? index run text' m' = rule.claim? index run text m := by
  simp only [claim?, extract, shown, empty, source, offsets]

/-- A rule that reads the sides of a character apart makes the fragments of the first side and then
those of the second one. -/
theorem claims_separated {rule : Rule} {x : Nat × Char} (apart : rule.ReadsApart x.2)
    (index run : Nat) (left right : PlacedText) :
    rule.claims index run (left ++ x :: right) =
      rule.claims index run left ++ rule.claims index run right := by
  have found : rule.shape.find (chars (left ++ x :: right)) =
      rule.shape.find left.chars ++
        (rule.shape.find right.chars).map (Occurrence.moved (left.length + 1)) := by
    have chars : chars (left ++ x :: right) = left.chars ++ x.2 :: right.chars := by
      simp [PlacedText.chars]
    rw [chars, apart.find_append, PlacedText.chars, List.length_map]
  rw [claims, found, List.filterMap_append, List.filterMap_map]
  congr 1
  · refine List.filterMap_congr fun m mem => ?_
    have lies := (rule.shape.find_inOrder left.chars).liesIn m mem
    have within : m.stop ≤ left.length := by simpa [PlacedText.chars] using lies.stop_le_length
    exact claim?_congr index run rfl (fun _ => rfl) .rfl rfl
      (placesBetween_append_left left _ within)
  · refine List.filterMap_congr fun m _ => ?_
    refine claim?_congr index run (apart.extract_moved m _) (fun value => ?_)
      Nat.add_right_cancel_iff rfl (placesBetween_append_right left right x _ _)
    cases rule.kind <;> rfl

end Rule

section Parts

variable (run index : Nat) (rules : List Rule)

@[simp]
theorem length_readParts (text : PlacedText) :
    (readParts run index rules text).length = rules.length := by
  induction rules generalizing index text with
  | nil => rfl
  | cons rule rules ih => rw [readParts, List.length_cons, List.length_cons, ih]

/-- The fragments with the number of a rule are the part of that rule. -/
theorem filter_readParts (text : PlacedText) (k : Nat) :
    (readParts run index rules text).flatten.filter (·.rule? = some (index + k)) =
      (readParts run index rules text)[k]?.getD [] := by
  induction rules generalizing index text k with
  | nil => rfl
  | cons rule rules ih =>
      have ofFirst {f : Fragment} (mem : f ∈ rule.claims index run text) : f.rule? = some index :=
        rule?_of_mem_claims mem
      rw [readParts, List.flatten_cons, List.filter_append]
      cases k with
      | zero =>
          have first : (rule.claims index run text).filter (·.rule? = some (index + 0)) =
              rule.claims index run text :=
            List.filter_eq_self.mpr fun f mem => by simp [ofFirst mem]
          have later : (readParts run (index + 1) rules
              (text.without (rule.claims index run text))).flatten.filter
                (·.rule? = some (index + 0)) = [] :=
            List.filter_eq_nil_iff.mpr fun f mem => by
              obtain ⟨j, number, le⟩ := le_rule?_of_mem_readParts mem
              simp only [number, decide_eq_true_eq, Option.some.injEq]
              omega
          rw [first, later, List.append_nil]
          rfl
      | succ k =>
          have first :
              (rule.claims index run text).filter (·.rule? = some (index + (k + 1))) = [] :=
            List.filter_eq_nil_iff.mpr fun f mem => by simp [ofFirst mem]
          rw [first, List.nil_append, List.getElem?_cons_succ, ← ih, Nat.add_right_comm,
            Nat.add_assoc]

/-- Reading on both sides of a character: every part is the part of the first side and then that of
the second one, further on. -/
theorem readParts_separated {x : Nat × Char} (apart : ∀ rule ∈ rules, rule.ReadsApart x.2)
    (leftRun rightRun distance : Nat) {left right : PlacedText}
    (sorted : Sorted (left ++ x :: right.moved distance)) :
    readParts run index rules (left ++ x :: right.moved distance) =
      List.zipWith
        (fun first second => first.map (Fragment.moved run 0) ++
          second.map (Fragment.moved run distance))
        (readParts leftRun index rules left) (readParts rightRun index rules right) := by
  induction rules generalizing index left right with
  | nil => rfl
  | cons rule rules ih =>
      obtain ⟨here, later⟩ := List.forall_mem_cons.mp apart
      have onLeft : rule.claims index run left =
          (rule.claims index leftRun left).map (Fragment.moved run 0) := by
        rw [← rule.claims_moved index run leftRun 0 left, moved_zero]
      have onRight := rule.claims_moved index run rightRun distance right
      have leftRest : left.without (rule.claims index run left) =
          left.without (rule.claims index leftRun left) := by
        have same := without_moved run 0 left (rule.claims index leftRun left)
        rwa [moved_zero, moved_zero, ← onLeft] at same
      have rightRest := without_moved run distance right (rule.claims index rightRun right)
      have rest : without (left ++ x :: right.moved distance)
          (rule.claims index run (left ++ x :: right.moved distance)) =
            left.without (rule.claims index leftRun left) ++
              x :: (right.without (rule.claims index rightRun right)).moved distance := by
        rw [Rule.claims_separated here, without_separated sorted
          (fun f mem => Rule.standsOn_of_mem_claims mem)
          (fun f mem => Rule.standsOn_of_mem_claims mem), leftRest, onRight, rightRest]
      have shrunk : Sorted (left.without (rule.claims index leftRun left) ++
          x :: (right.without (rule.claims index rightRun right)).moved distance) := by
        rw [← rest]
        exact sorted.sublist (without_sublist _ _)
      simp only [readParts, List.zipWith_cons_cons]
      rw [rest, ih (index + 1) later shrunk, Rule.claims_separated here, onLeft, onRight]

end Parts

/-- Parts that are put together pairwise, taken number by number. -/
theorem flatten_zipWith_eq_flatMap {n : Nat} {first second : List (List Fragment)}
    (firstLength : first.length = n) (secondLength : second.length = n)
    (join : List Fragment → List Fragment → List Fragment) :
    (List.zipWith join first second).flatten =
      (List.range n).flatMap fun k => join (first[k]?.getD []) (second[k]?.getD []) := by
  rw [List.flatMap_def]
  congr 1
  refine List.ext_getElem (by simp [firstLength, secondLength]) fun k _ inRange => ?_
  rw [List.length_map, List.length_range] at inRange
  rw [List.getElem_zipWith, List.getElem_map, List.getElem_range,
    List.getElem?_eq_getElem (by omega), List.getElem?_eq_getElem (by omega)]
  rfl

namespace DefaultRules

/-- Where there are only blanks, default rules make nothing. -/
theorem readParts_blank {rules : List Rule} (default : ∀ rule ∈ rules, rule ∈ all)
    (run index : Nat) {text : PlacedText} (blank : text.chars.all Text.isBlank = true) :
    (readParts run index rules text).flatten = [] := by
  induction rules generalizing index with
  | nil => rfl
  | cons rule rules ih =>
      obtain ⟨here, later⟩ := List.forall_mem_cons.mp default
      have none : rule.claims index run text = [] := by
        rw [Rule.claims, find_eq_nil here blank, List.filterMap_nil]
      rw [readParts, none, without_nil, List.flatten_cons, ih later, List.append_nil]

/-- Although a blank query is not looked at, the fragments are those of the default rules. -/
theorem read_fragments (run : Nat) (query : List Char) :
    (Table.default.read run query).fragments = (readParts run 0 all (ofText query)).flatten := by
  rw [Table.read]
  split
  next blank =>
    have chars : (ofText query).chars = query := by
      simp [PlacedText.chars, ofText, Function.comp_def]
    rw [readParts_blank (fun _ mem => mem) run 0 (chars.symm ▸ blank)]
  · rw [readRules_fragments run 0 _ (sorted_ofText query)]
    rfl

end DefaultRules

/-- The reading of two clauses with a separator between them is made of the readings of the clauses:
for one default rule after another, the fragments of the first clause and then those of the second
clause, which lies further on. -/
theorem fragments_separated (run leftRun rightRun : Nat) (left right : List Char) {c : Char}
    (separator : Text.isSeparator c = true) :
    (Table.default.read run (left ++ c :: right)).fragments =
      (List.range Table.default.rules.length).flatMap fun k =>
        ((Table.default.read leftRun left).fragments.filter (·.rule? = some k)).map
            (Fragment.moved run 0) ++
          ((Table.default.read rightRun right).fragments.filter (·.rule? = some k)).map
            (Fragment.moved run (left.length + 1)) := by
  have sorted := sorted_ofText (left ++ c :: right)
  rw [ofText_append] at sorted
  have part (run k : Nat) (query : List Char) :
      (readParts run 0 DefaultRules.all (ofText query))[k]?.getD [] =
        (Table.default.read run query).fragments.filter (·.rule? = some k) := by
    rw [DefaultRules.read_fragments, ← filter_readParts, Nat.zero_add]
  rw [DefaultRules.read_fragments, ofText_append,
    readParts_separated run 0 _ (fun rule mem => DefaultRules.readsApart mem separator) leftRun
      rightRun (left.length + 1) sorted,
    flatten_zipWith_eq_flatMap (length_readParts ..) (length_readParts ..)]
  simp only [part]
  rfl

/-- Two clauses with a comma between them, read in runs of their own. -/
theorem fragments_separated_comma :
    Text.isSeparator ',' = true ∧
      (Table.default.read 0 ("action movies".toList ++ ',' :: " in 2020".toList)).fragments =
        (List.range Table.default.rules.length).flatMap fun k =>
          ((Table.default.read 1 "action movies".toList).fragments.filter
              (·.rule? = some k)).map (Fragment.moved 0 0) ++
            ((Table.default.read 2 " in 2020".toList).fragments.filter
              (·.rule? = some k)).map (Fragment.moved 0 ("action movies".toList.length + 1)) :=
  ⟨by decide +kernel,
    fragments_separated 0 1 2 "action movies".toList " in 2020".toList (by decide +kernel)⟩

end FilmQuery
