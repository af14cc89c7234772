/-
# The first rule at fault

A list of rules is taken up rule by rule, with the keys of the rules before in mind, each with its
place (`Tracks`).  A rule is at fault if it has nothing to take a value from or is the twin of a
rule before it (`IsAtFault`).  The first such rule settles the error (`tells_of_faultAfter?`): that
it has no value goes before anything else, and as the rules before it are told apart by their keys,
it can only be the twin of one of them.  Without such a rule the list is a table
(`Table.ofRules_cases`).
-/
import FilmQuery.Proofs.Query.Silence
import Mathlib.Order.Bounds.Defs

namespace FilmQuery

namespace Rule

/-- Whether a rule has something to take values from: an extractor, or else a value of its own. -/
def HasSource (rule : Rule) : Prop := rule.extractor ≠ none ∨ rule.fixed ≠ .nothing

/-- Whether two rules agree on the kind, on the text of the pattern, and on all its switches. -/
def IsTwin (rule other : Rule) : Prop :=
  rule.kind = other.kind ∧ rule.shape.text = other.shape.text ∧
    rule.shape.blind = other.shape.blind ∧ rule.shape.switches = other.shape.switches

variable {rule other : Rule}

theorem hasValue_iff : rule.hasValue = true ↔ rule.HasSource := by
  simp [hasValue, HasSource, Option.isSome_iff_ne_none]

theorem key_eq_iff : rule.key = other.key ↔ rule.IsTwin other := by
  simp [key, IsTwin]

end Rule

/-- Whether the rule at one place is the twin of the rule at an earlier one. -/
def Repeats (rules : List Rule) (place earlier : Nat) : Prop :=
  earlier < place ∧ ∃ rule first, rules[place]? = some rule ∧ rules[earlier]? = some first ∧
    first.IsTwin rule

/-- Whether the rule at a place has no value or repeats an earlier one. -/
def IsAtFault (rules : List Rule) (place : Nat) : Prop :=
  ∃ rule, rules[place]? = some rule ∧ (¬ rule.HasSource ∨ ∃ earlier, Repeats rules place earlier)

namespace TableError

/-- What an error says of a list of rules: which rule is the first at fault, and what its fault is.
That it has no value is said first, and a twin is said to repeat the one rule that it can repeat. -/
inductive Tells (rules : List Rule) : TableError → Prop
  | noValue {i : Nat} {rule : Rule} (found : rules[i]? = some rule)
      (first : IsLeast {k | IsAtFault rules k} i) (unsourced : ¬ rule.HasSource) :
      Tells rules (.noValue i rule.kind)
  | duplicate {i j : Nat} {rule : Rule} (found : rules[i]? = some rule)
      (first : IsLeast {k | IsAtFault rules k} i) (sourced : rule.HasSource)
      (only : ∀ k, Repeats rules i k ↔ k = j) :
      Tells rules (.duplicate i j rule.kind rule.shape.text)

/-- How a message begins: with the number of the rule at fault, and with that of its twin. -/
def opening : TableError → String
  | noValue index _ => "Rule " ++ indexText index ++ " "
  | duplicate index earlier _ _ =>
    "Rule " ++ indexText index ++ " duplicates rule " ++ indexText earlier ++ ": "

theorem opening_prefix (e : TableError) : e.opening.toList <+: e.message.toList := by
  cases e with
  | noValue index kind =>
      refine ⟨("(" ++ kind.name ++ ") has neither an extractor nor a static value.").toList, ?_⟩
      simp [opening, message]
  | duplicate index earlier kind pattern =>
      refine ⟨(kind.name ++ " /" ++ pattern ++ "/").toList, ?_⟩
      simp [opening, message]

end TableError

/-- What is known of the rules before a place: they all have values, and under each key stands the
place of the one rule that has it. -/
structure Tracks (before : List Rule) (seen : List (Rule.Key × Nat)) : Prop where
  sourced : ∀ rule ∈ before, rule.HasSource
  lookup : ∀ key j, seen.lookup key = some j ↔ ∃ rule, before[j]? = some rule ∧ rule.key = key

namespace Tracks

variable {before rest : List Rule} {seen : List (Rule.Key × Nat)} {rule : Rule}

theorem nil : Tracks [] [] := ⟨by simp, by simp⟩

/-- A rule with a new key is taken up. -/
theorem concat (tracks : Tracks before seen) (sourced : rule.HasSource)
    (new : seen.lookup rule.key = none) :
    Tracks (before ++ [rule]) ((rule.key, before.length) :: seen) where
  sourced := by
    rw [List.forall_mem_append, List.forall_mem_singleton]
    exact ⟨tracks.sourced, sourced⟩
  lookup key j := by
    rw [List.lookup_cons]
    by_cases same : key = rule.key
    · subst same
      have apart : ∀ k (other : Rule), before[k]? = some other → other.key ≠ rule.key :=
        fun k other found twin => by
          have there := (tracks.lookup rule.key k).mpr ⟨other, found, twin⟩
          rw [new] at there
          cases there
      rw [beq_self_eq_true]
      constructor
      · rintro ⟨⟩
        exact ⟨rule, List.getElem?_concat_length, rfl⟩
      · rintro ⟨other, found, twin⟩
        rcases Nat.lt_or_ge j before.length with inside | behind
        · rw [List.getElem?_append_left inside] at found
          exact absurd twin (apart j other found)
        · have last := (List.getElem?_eq_some_iff.mp found).1
          rw [List.length_append, List.length_singleton] at last
          rw [Nat.le_antisymm behind (Nat.le_of_lt_succ last)]
    · rw [beq_eq_false_iff_ne.mpr same]
      refine (tracks.lookup key j).trans (exists_congr fun other => ?_)
      refine and_congr_left fun own => ?_
      rcases Nat.lt_or_ge j before.length with inside | behind
      · rw [List.getElem?_append_left inside]
      · rw [List.getElem?_eq_none behind, List.getElem?_append_right behind]
        refine iff_of_false (by simp) fun found => same ?_
        rw [List.getElem?_singleton] at found
        split at found
        · cases found
          exact own.symm
        · cases found

/-- The rule at a place repeats no rule but the one whose place is known for its key. -/
theorem repeats_iff (tracks : Tracks before seen) (k : Nat) :
    Repeats (before ++ rule :: rest) before.length k ↔ seen.lookup rule.key = some k := by
  have here : (before ++ rule :: rest)[before.length]? = some rule := by
    rw [List.getElem?_append_right (Nat.le_refl _), Nat.sub_self, List.getElem?_cons_zero]
  rw [tracks.lookup]
  constructor
  · rintro ⟨inside, own, first, found, earlier, twin⟩
    rw [here] at found
    cases found
    rw [List.getElem?_append_left inside] at earlier
    exact ⟨first, earlier, Rule.key_eq_iff.mpr twin⟩
  · rintro ⟨first, earlier, same⟩
    have inside := (List.getElem?_eq_some_iff.mp earlier).1
    exact ⟨inside, rule, first, here, by rwa [List.getElem?_append_left inside],
      Rule.key_eq_iff.mp same⟩

/-- No rule that was taken up is at fault, whatever follows. -/
theorem not_isAtFault (tracks : Tracks before seen) (rest : List Rule) {k : Nat}
    (inside : k < before.length) : ¬ IsAtFault (before ++ rest) k := by
  rintro ⟨rule, found, fault⟩
  rw [List.getElem?_append_left inside] at found
  rcases fault with unsourced | ⟨j, lt, own, first, found', earlier, twin⟩
  · exact unsourced (tracks.sourced rule (List.mem_of_getElem? found))
  · rw [List.getElem?_append_left inside, found] at found'
    cases found'
    rw [List.getElem?_append_left (Nat.lt_trans lt inside)] at earlier
    -- Both places are the one that is known for the key.
    have place := (tracks.lookup rule.key k).mpr ⟨rule, found, rfl⟩
    have place' := (tracks.lookup rule.key j).mpr ⟨first, earlier, Rule.key_eq_iff.mpr twin⟩
    rw [place] at place'
    exact absurd (Option.some.inj place') (Nat.ne_of_gt lt)

end Tracks

/-- What is said of the rules to come, where the rules before were all taken up. -/
theorem tells_of_faultAfter? {before rest : List Rule} {seen : List (Rule.Key × Nat)}
    {e : TableError} (tracks : Tracks before seen)
    (failed : faultAfter? seen before.length rest = some e) : e.Tells (before ++ rest) := by
  induction rest generalizing before seen with
  | nil => cases failed
  | cons rule rest ih =>
      have found : (before ++ rule :: rest)[before.length]? = some rule := by
        rw [List.getElem?_append_right (Nat.le_refl _), Nat.sub_self, List.getElem?_cons_zero]
      have least (fault : IsAtFault (before ++ rule :: rest) before.length) :
          IsLeast {k | IsAtFault (before ++ rule :: rest) k} before.length :=
        ⟨fault, fun k faulty => Nat.le_of_not_lt fun inside =>
          tracks.not_isAtFault (rule :: rest) inside faulty⟩
      rw [faultAfter?] at failed
      by_cases sourced : rule.HasSource
      · rw [Rule.hasValue_iff.mpr sourced] at failed
        cases known : seen.lookup rule.key with
        | some earlier =>
            simp only [known] at failed
            cases failed
            have only (k : Nat) :
                Repeats (before ++ rule :: rest) before.length k ↔ k = earlier := by
              rw [tracks.repeats_iff, known, Option.some.injEq, eq_comm]
            exact .duplicate found (least ⟨rule, found, .inr ⟨earlier, (only earlier).mpr rfl⟩⟩)
              sourced only
        | none =>
            simp only [known] at failed
            have next := ih (tracks.concat sourced known)
              (by rw [List.length_append, List.length_singleton]; exact failed)
            rwa [List.append_assoc, List.singleton_append] at next
      · rw [Bool.eq_false_iff.mpr (mt Rule.hasValue_iff.mp sourced)] at failed
        cases failed
        exact .noValue found (least ⟨rule, found, .inl sourced⟩) sourced

namespace Table

theorem ofRules_eq_ok_iff {rules : List Rule} {table : Table} :
    ofRules rules = .ok table ↔ fault? rules = none ∧ table.rules = rules := by
  unfold ofRules
  split
  next faultless =>
    rw [Except.ok.injEq, and_iff_right faultless]
    obtain ⟨own, _⟩ := table
    simp only [mk.injEq, eq_comm]
  next failed => simp [failed]

theorem ofRules_eq_error_iff {rules : List Rule} {e : TableError} :
    ofRules rules = .error e ↔ fault? rules = some e := by
  unfold ofRules
  split
  next faultless => simp [faultless]
  next failed => simp [failed]

/-- A list of rules makes a table if and only if every rule has something to take values from and no
two rules agree on kind, pattern and switches; the table then holds the rules as they are, in their
order.  Otherwise the error tells of the first rule at fault, and the message says which rule it is
and which one it repeats. -/
theorem ofRules_cases (rules : List Rule) :
    ((∃ table, ofRules rules = .ok table) ↔
        (∀ rule ∈ rules, rule.HasSource) ∧
          rules.Pairwise fun rule later => ¬ rule.IsTwin later) ∧
      (∀ table, ofRules rules = .ok table → table.rules = rules) ∧
      ∀ e, ofRules rules = .error e → e.Tells rules ∧ e.opening.toList <+: e.message.toList := by
  have wellFormed : fault? rules = none ↔
      (∀ rule ∈ rules, rule.HasSource) ∧ rules.Pairwise fun rule later => ¬ rule.IsTwin later := by
    simp only [fault?_eq_none_iff, Rule.hasValue_iff, List.Nodup, List.pairwise_map, ne_eq,
      Rule.key_eq_iff]
  refine ⟨?_, fun table made => (ofRules_eq_ok_iff.mp made).2, fun e failed => ?_⟩
  · rw [← wellFormed]
    constructor
    · rintro ⟨table, made⟩
      exact (ofRules_eq_ok_iff.mp made).1
    · exact fun faultless => ⟨⟨rules, faultless⟩, ofRules_eq_ok_iff.mpr ⟨faultless, rfl⟩⟩
  · exact ⟨tells_of_faultAfter? .nil (ofRules_eq_error_iff.mp failed), e.opening_prefix⟩

end Table

end FilmQuery
