/-
# Labels tell values

The label of a fragment shows what the fragment says: years as they were typed, ratings with six
digits, and everything else by a word or by the words of the phrase.  So two fragments of a kind
with the same label have the same value, as long as six digits are enough for their ratings
(`value_eq_of_label`).  A range of ratings is told by its hyphen: any other one in the label
belongs to an exponent.
-/
import FilmQuery.Proofs.Number.Shown
import FilmQuery.Proofs.Query.Turns
import FilmQuery.Proofs.Rule.Values

namespace FilmQuery

open Number (Binary64)
open Number.Numeral (Parts)

/-- Whether all ratings of a value come from decimals with no more than six digits. -/
def Value.IsShort : Value → Prop
  | .ratings range => (∀ x ∈ range.low, x.IsShort) ∧ ∀ x ∈ range.high, x.IsShort
  | _ => True

/-- A rule of record says of an occurrence what a fragment says. -/
structure Rule.Reads (rule : Rule) (m : Occurrence) (f : Fragment) : Prop where
  mem : rule ∈ DefaultRules.all
  found : ∃ chars, m ∈ rule.shape.find chars
  kind : rule.kind = f.kind
  extracted : rule.extract m = .ok f.value
  something : f.value ≠ .nothing
  labelled : label f.kind f.value m = .ok f.label
  source : f.source = String.ofList m.text

/-- Every fragment of a query is read by a rule. -/
theorem DefaultRules.exists_reads {run : Nat} {query : List Char} {f : Fragment}
    (mem : f ∈ (Table.default.read run query).fragments) :
    ∃ rule : Rule, ∃ m, rule.Reads m f := by
  obtain ⟨k, rule, ruleAt, claimed⟩ := mem_fragments_iff.mp mem
  obtain ⟨m, found, made⟩ := List.mem_filterMap.mp claimed
  obtain ⟨kind, extracted, something, labelled⟩ := Rule.said_of_claim? made
  exact ⟨rule, m, List.mem_of_getElem? ruleAt, ⟨_, found⟩, kind.symm, extracted, something,
    kind ▸ labelled, (Rule.eq_of_claim? made).2.2.1⟩

/-- No name of a provider names another one. -/
theorem DefaultRules.not_spells_of_provider {j k : Nat} {rule later : Rule} (lt : j < k)
    (first : all[j]? = some rule) (second : all[k]? = some later) (provider : rule.kind = .provider)
    (provider' : later.kind = .provider) {entry entry' : Nat × Pattern} {met : List Char}
    (isGroup : entry ∈ rule.pattern.groups) (isGroup' : entry' ∈ later.pattern.groups)
    (spelled : entry'.2.Spells true met) : ¬ entry.2.Spells true met := by
  have apart := areToldApart_of_lt lt first second
  rw [provider, provider'] at apart
  have foreign := List.all_eq_true.mp (List.all_eq_true.mp apart _ isGroup) _ isGroup'
  simp only [Bool.and_eq_true] at foreign
  exact Pattern.not_spells_of_isForeignTo foreign.1.1 foreign.1.2 foreign.2 spelled
    List.infix_rfl

namespace Rule.Reads

variable {f g : Fragment} {rule rule' : Rule} {m m' : Occurrence}

theorem allows (reads : rule.Reads m f) : f.kind.Allows f.value := by
  obtain ⟨chars, found⟩ := reads.found
  rw [← reads.kind]
  exact DefaultRules.allows_of_extract reads.mem found reads.extracted reads.something

/-- What the extractor of its kind gives is the value. -/
theorem extract_eq (reads : rule.Reads m f) {extractor : Extractor}
    (ofKind : Extractor.ofKind? f.kind = some extractor) : extractor m = .ok f.value := by
  have extracted := reads.extracted
  rw [Rule.extract, (DefaultRules.isOfKind rule reads.mem).extractor, reads.kind,
    ofKind] at extracted
  exact extracted

/-- A rule without an extractor has one value. -/
theorem value_eq_fixed (reads : rule.Reads m f) (none : Extractor.ofKind? f.kind = none) :
    f.value = rule.fixed := by
  have extracted := reads.extracted
  rw [Rule.extract, (DefaultRules.isOfKind rule reads.mem).extractor, reads.kind, none] at extracted
  exact (Except.ok.inj extracted).symm

theorem spells_of_noted (reads : rule.Reads m f) {capture : Nat × List Char}
    (noted : capture ∈ m.captures) :
    ∃ body, (capture.1, body) ∈ rule.pattern.groups ∧ body.Spells true capture.2 := by
  obtain ⟨chars, found⟩ := reads.found
  rw [DefaultRules.find_eq_occurrences reads.mem] at found
  exact (Pattern.spells_of_mem_occurrences found).2 _ noted

/-- If all groups have one number, it is that of the last one. -/
theorem lastGroup?_eq (reads : rule.Reads m f) {index : Nat}
    (only : (rule.pattern.groups.all fun (number, _) => number == index) = true)
    {capture : Nat × List Char} (noted : capture ∈ m.captures) : m.lastGroup? = some index := by
  obtain ⟨last, captures, eq⟩ := List.exists_cons_of_ne_nil (List.ne_nil_of_mem noted)
  obtain ⟨body, isGroup, _⟩ := reads.spells_of_noted (eq ▸ List.mem_cons_self : last ∈ m.captures)
  have numbered := List.all_eq_true.mp only _ isGroup
  rw [Occurrence.lastGroup?, eq, List.head?_cons, Option.map_some, eq_of_beq numbered]

/-- Where the label shows something that settles the value, equal labels have equal values. -/
theorem value_eq_of_shown {α : Type} (first : rule.Reads m f) (second : rule'.Reads m' g)
    (kinds : f.kind = g.kind) (labels : f.label = g.label) (say : α → Value) (shown : α → String)
    (labelOf : ∀ x m, label f.kind (say x) m = .ok (shown x)) {x y : α} (ofFirst : f.value = say x)
    (ofSecond : g.value = say y) (tells : shown x = shown y → x = y) : f.value = g.value := by
  have labelled := first.labelled
  have labelled' := second.labelled
  rw [ofFirst, labelOf] at labelled
  rw [← kinds, ofSecond, labelOf] at labelled'
  have same : shown x = shown y :=
    (Except.ok.inj labelled).trans (labels.trans (Except.ok.inj labelled').symm)
  rw [ofFirst, ofSecond, tells same]

/-- A label that shows group 1 shows what the group has met. -/
theorem exists_met (reads : rule.Reads m f) {title : String}
    (labelOf : label f.kind f.value m = (shownGroup m 1).map (title ++ ·))
    (always : rule.pattern.alwaysMeets 1 = true) :
    ∃ met, m.group 1 = .ok (some met) ∧ (1, met) ∈ m.captures ∧
      f.label = title ++ String.ofList met := by
  obtain ⟨chars, found⟩ := reads.found
  rw [DefaultRules.find_eq_occurrences reads.mem] at found
  obtain ⟨met, lookup, noted⟩ := Pattern.exists_lookup_of_mem_occurrences found always
  have labelled := labelOf.symm.trans reads.labelled
  have group : m.group 1 = .ok (some met) := by
    rw [Occurrence.group, if_neg Nat.one_ne_zero]
    split
    next missing =>
      rw [shownGroup, Occurrence.group, if_neg Nat.one_ne_zero, if_pos missing] at labelled
      cases labelled
    next => rw [lookup]
  rw [shownGroup, group] at labelled
  exact ⟨met, group, noted, (Except.ok.inj labelled).symm⟩

/-- Two labels that show the same have met the same. -/
theorem exists_met_of_label_eq (first : rule.Reads m f) (second : rule'.Reads m' g)
    (kinds : f.kind = g.kind) (labels : f.label = g.label) (title : String)
    (labelOf : ∀ value m, label f.kind value m = (shownGroup m 1).map (title ++ ·))
    (always : rule.pattern.alwaysMeets 1 = true) (always' : rule'.pattern.alwaysMeets 1 = true) :
    ∃ met, (m.group 1 = .ok (some met) ∧ (1, met) ∈ m.captures) ∧
      m'.group 1 = .ok (some met) ∧ (1, met) ∈ m'.captures := by
  obtain ⟨met, group, noted, shown⟩ := first.exists_met (labelOf f.value m) always
  obtain ⟨met', group', noted', shown'⟩ := second.exists_met (kinds ▸ labelOf g.value m') always'
  rw [shown, shown', String.append_right_inj] at labels
  have same : met = met' := String.ofList_injective labels
  exact ⟨met, ⟨group, noted⟩, same ▸ group', same ▸ noted'⟩

/-- The name by which a provider is asked for settles the provider. -/
theorem value_eq_of_provider (first : rule.Reads m f) (second : rule'.Reads m' g)
    (kinds : f.kind = g.kind) (labels : f.label = g.label) (provider : f.kind = .provider) :
    f.value = g.value := by
  have shows := DefaultRules.showsGroup_of_mem first.mem
  have shows' := DefaultRules.showsGroup_of_mem second.mem
  rw [first.kind, provider] at shows
  rw [second.kind, ← kinds, provider] at shows'
  simp only [DefaultRules.showsGroup, Bool.and_eq_true] at shows shows'
  obtain ⟨met, ⟨_, noted⟩, _, noted'⟩ := first.exists_met_of_label_eq second kinds labels
    "On: " (by rw [provider]; intros; rfl) shows.1 shows'.1
  obtain ⟨body, isGroup, spelled⟩ := first.spells_of_noted noted
  obtain ⟨body', isGroup', spelled'⟩ := second.spells_of_noted noted'
  obtain ⟨j, ruleAt⟩ := List.mem_iff_getElem?.mp first.mem
  obtain ⟨k, ruleAt'⟩ := List.mem_iff_getElem?.mp second.mem
  have named := first.kind.trans provider
  have named' := second.kind.trans (kinds.symm.trans provider)
  rcases Nat.lt_trichotomy j k with lt | rfl | gt
  · exact absurd spelled (DefaultRules.not_spells_of_provider lt ruleAt ruleAt' named named' isGroup
      isGroup' spelled')
  · have same : rule = rule' := Option.some.inj (ruleAt.symm.trans ruleAt')
    rw [first.value_eq_fixed (by rw [provider]; rfl),
      second.value_eq_fixed (by rw [← kinds, provider]; rfl), same]
  · exact absurd spelled' (DefaultRules.not_spells_of_provider gt ruleAt' ruleAt named' named
      isGroup' isGroup spelled)

/-- The word in the label of an excluded genre settles the genre. -/
theorem value_eq_of_genreExclude (first : rule.Reads m f) (second : rule'.Reads m' g)
    (kinds : f.kind = g.kind) (labels : f.label = g.label) (exclude : f.kind = .genreExclude) :
    f.value = g.value := by
  have shows := DefaultRules.showsGroup_of_mem first.mem
  have shows' := DefaultRules.showsGroup_of_mem second.mem
  rw [first.kind, exclude] at shows
  rw [second.kind, ← kinds, exclude] at shows'
  simp only [DefaultRules.showsGroup, Bool.and_eq_true] at shows shows'
  obtain ⟨met, ⟨group, noted⟩, group', noted'⟩ := first.exists_met_of_label_eq second kinds labels
    "Exclude: " (by rw [exclude]; intros; rfl) shows.1 shows'.1
  have extracted := first.extract_eq (by rw [exclude]; rfl)
  have extracted' := second.extract_eq (by rw [← kinds, exclude]; rfl)
  rw [Extractor.genre, first.lastGroup?_eq shows.2 noted, Option.getD_some, group] at extracted
  rw [Extractor.genre, second.lastGroup?_eq shows'.2 noted', Option.getD_some, group'] at extracted'
  exact Except.ok.inj (extracted.symm.trans extracted')

/-- The label of a genre shows the phrase. -/
theorem label_of_genre (reads : rule.Reads m f) (genre : f.kind = .genre) :
    f.label = "Genre: " ++ f.source := by
  have labelled := reads.labelled
  rw [genre] at labelled
  rw [reads.source]
  exact (Except.ok.inj labelled).symm

/-- The phrase in the label of a genre settles the genre. -/
theorem value_eq_of_genre (first : rule.Reads m f) (second : rule'.Reads m' g)
    (kinds : f.kind = g.kind) (labels : f.label = g.label) (genre : f.kind = .genre) :
    f.value = g.value := by
  obtain ⟨only, single⟩ : ∃ only, DefaultRules.all.filter (·.kind == .genre) = [only] := ⟨_, rfl⟩
  have isOnly {rule : Rule} (mem : rule ∈ DefaultRules.all) (kind : rule.kind = .genre) :
      rule = only := by
    have selected : rule ∈ DefaultRules.all.filter (·.kind == .genre) :=
      List.mem_filter.mpr ⟨mem, by simp [kind]⟩
    rw [single] at selected
    exact List.mem_singleton.mp selected
  have same : rule' = rule :=
    (isOnly second.mem (second.kind.trans (kinds ▸ genre))).trans
      (isOnly first.mem (first.kind.trans genre)).symm
  rw [first.label_of_genre genre, second.label_of_genre (kinds ▸ genre), String.append_right_inj,
    first.source, second.source] at labels
  have texts : m.text = m'.text := String.ofList_injective labels
  obtain ⟨chars, found⟩ := first.found
  obtain ⟨chars', found'⟩ := second.found
  rw [same] at found'
  -- The rule finds the phrase again in the phrase alone, so both occurrences are that one.
  have alone := DefaultRules.find_alone first.mem found
  rw [texts, DefaultRules.find_alone first.mem found'] at alone
  have placed : m' = { m with start := m'.start, stop := m'.stop } := by
    cases m
    cases m'
    simp only [List.cons.injEq, Occurrence.mk.injEq, true_and, and_true] at alone texts ⊢
    exact ⟨texts.symm, alone⟩
  have extracted := second.extracted
  rw [same, placed, DefaultRules.extract_placed rule first.mem, first.extracted] at extracted
  exact Except.ok.inj extracted

/-- The value of a fragment is what its kind says of the one thing that is read. -/
theorem exists_of_ofKind {α : Type} (reads : rule.Reads m f) {extractor : Extractor}
    (ofKind : Extractor.ofKind? f.kind = some extractor)
    {read : Occurrence → Except Fault (Option α)} {say : Option α → Value}
    (form : extractor = fun m => (read m).map say) (silent : say none = .nothing) :
    ∃ x, f.value = say (some x) := by
  have extracted := reads.extract_eq ofKind
  rw [form] at extracted
  obtain ⟨x, _, value⟩ := Extractor.exists_of_map silent extracted reads.something
  exact ⟨x, value⟩

/-- The label of what is said of one thing read settles the value if it settles that thing. -/
theorem value_eq_of_map {α : Type} (first : rule.Reads m f) (second : rule'.Reads m' g)
    (kinds : f.kind = g.kind) (labels : f.label = g.label) {extractor : Extractor}
    (ofKind : Extractor.ofKind? f.kind = some extractor)
    {read : Occurrence → Except Fault (Option α)} {say : Option α → Value}
    (form : extractor = fun m => (read m).map say) (silent : say none = .nothing)
    (shown : α → String) (labelOf : ∀ x m, label f.kind (say (some x)) m = .ok (shown x))
    (tells : ∀ x y, f.value = say (some x) → g.value = say (some y) → shown x = shown y → x = y) :
    f.value = g.value := by
  obtain ⟨x, value⟩ := first.exists_of_ofKind ofKind form silent
  obtain ⟨y, value'⟩ := second.exists_of_ofKind (kinds ▸ ofKind) form silent
  exact first.value_eq_of_shown second kinds labels (fun x => say (some x)) shown labelOf value
    value' (tells x y value value')

/-- A pair of years has a first and a last one, both four characters long. -/
theorem exists_years (reads : rule.Reads m f) (kind : f.kind = .yearRange) :
    ∃ years : String × String, f.value = .years ⟨some years.1, some years.2⟩ ∧
      years.1.toList.length = 4 := by
  have allowed := reads.allows
  have something := reads.something
  have extracted := reads.extract_eq (by rw [kind]; rfl)
  unfold Extractor.yearRange at extracted
  obtain ⟨start, stop, _, _, said⟩ :=
    Extractor.exists_of_both (fun other => by cases other <;> exact ⟨rfl, rfl⟩) extracted something
  have value : (if stop < start then .nothing else .years ⟨some start, some stop⟩) = f.value :=
    Except.ok.inj said
  split at value
  · exact absurd value.symm something
  · rw [kind] at allowed
    obtain ⟨range, same, sound⟩ := allowed
    rw [← value] at same
    cases same
    exact ⟨(start, stop), value.symm, (sound.start start rfl).1⟩

/-- The years in a label are those of the value. -/
theorem value_eq_of_year (first : rule.Reads m f) (second : rule'.Reads m' g)
    (kinds : f.kind = g.kind) (labels : f.label = g.label) (year : f.kind.isYear = true) :
    f.value = g.value := by
  cases kind : f.kind with
  | yearFrom =>
      exact first.value_eq_of_map second kinds labels (by rw [kind]; rfl) rfl rfl ("Since: " ++ ·)
        (by rw [kind]; intros; rfl) fun _ _ _ _ => (String.append_right_inj _).mp
  | yearTo =>
      exact first.value_eq_of_map second kinds labels (by rw [kind]; rfl) rfl rfl ("Until: " ++ ·)
        (by rw [kind]; intros; rfl) fun _ _ _ _ => (String.append_right_inj _).mp
  | yearExact =>
      exact first.value_eq_of_map second kinds labels (by rw [kind]; rfl) rfl rfl ("Year: " ++ ·)
        (by rw [kind]; intros; rfl) fun _ _ _ _ => (String.append_right_inj _).mp
  | yearRange =>
      obtain ⟨years, value, length⟩ := first.exists_years kind
      obtain ⟨years', value', length'⟩ := second.exists_years (kinds ▸ kind)
      refine first.value_eq_of_shown second kinds labels
        (fun years : String × String => .years ⟨some years.1, some years.2⟩)
        (fun years => "Years: " ++ years.1 ++ "-" ++ years.2) (by rw [kind]; intros; rfl) value
        value' fun shown => ?_
      simp only [String.append_assoc, String.append_right_inj] at shown
      rw [← String.toList_inj] at shown
      simp only [String.toList_append] at shown
      obtain ⟨starts, rest⟩ := List.append_inj shown (length.trans length'.symm)
      exact Prod.ext (String.toList_inj.mp starts)
        (String.toList_inj.mp (List.append_cancel_left rest))
  | _ =>
      rw [kind] at year
      cases year

/-- A range of ratings has a lowest and a highest one. -/
theorem exists_ratings (reads : rule.Reads m f) (kind : f.kind = .ratingRange) :
    ∃ ratings : Binary64 × Binary64, f.value = .ratings ⟨some ratings.1, some ratings.2⟩ := by
  have something := reads.something
  have extracted := reads.extract_eq (by rw [kind]; rfl)
  unfold Extractor.ratingRange at extracted
  obtain ⟨low, high, _, _, said⟩ :=
    Extractor.exists_of_both (fun other => by cases other <;> exact ⟨rfl, rfl⟩) extracted something
  have value : (if high.lt low then .nothing else .ratings ⟨some low, some high⟩) = f.value :=
    Except.ok.inj said
  split at value
  · exact absurd value.symm something
  · exact ⟨(low, high), value.symm⟩

/-- Every year of a fragment has four digits. -/
theorem isSound_of_years (reads : rule.Reads m f) (year : f.kind.isYear = true)
    {range : YearRange} (value : f.value = .years range) : range.IsSound := by
  have allowed := reads.allows
  rw [value] at allowed
  generalize f.kind = kind at allowed year
  cases kind with
  | yearFrom | yearTo | yearExact | yearRange =>
      obtain ⟨other, same, sound⟩ := allowed
      cases same
      exact sound
  | _ => cases year

/-- Every rating of a fragment is on the scale. -/
theorem isSound_of_ratings (reads : rule.Reads m f) (rating : f.kind.isRating = true)
    {range : RatingRange} (value : f.value = .ratings range) : range.IsSound := by
  have allowed := reads.allows
  rw [value] at allowed
  generalize f.kind = kind at allowed rating
  cases kind with
  | ratingMin | ratingMax | ratingFloor | ratingRange =>
      obtain ⟨other, same, sound⟩ := allowed
      cases same
      exact sound
  | _ => cases rating

/-- Six digits of a rating are enough to tell it, if it has no more. -/
theorem eq_of_ratingText {x y : Binary64} (scaled : Extractor.isOnScale x = true)
    (scaled' : Extractor.isOnScale y = true) (short : x.IsShort) (short' : y.IsShort)
    (same : ratingText x = ratingText y) : x = y := by
  obtain ⟨p, sound, text, gives⟩ := Number.Binary64.exists_parts_ratingText scaled short
  obtain ⟨p', sound', text', gives'⟩ := Number.Binary64.exists_parts_ratingText scaled' short'
  have read := Parts.real?_text sound
  rw [← text, same, text', Parts.real?_text sound', gives, gives'] at read
  exact (Option.some.inj read).symm

/-- The ratings in a label are those of the value. -/
theorem value_eq_of_rating (first : rule.Reads m f) (second : rule'.Reads m' g)
    (kinds : f.kind = g.kind) (labels : f.label = g.label) (rating : f.kind.isRating = true)
    (short : f.value.IsShort) (short' : g.value.IsShort) : f.value = g.value := by
  have rating' : g.kind.isRating = true := kinds ▸ rating
  -- A rating on one side of the range, and nothing on the other.
  have low {x y : Binary64} (value : f.value = .ratings ⟨some x, none⟩)
      (value' : g.value = .ratings ⟨some y, none⟩) (same : ratingText x = ratingText y) :
      x = y := by
    have sound := first.isSound_of_ratings rating value
    have sound' := second.isSound_of_ratings rating' value'
    rw [value] at short
    rw [value'] at short'
    exact eq_of_ratingText (sound.low x rfl) (sound'.low y rfl) (short.1 x rfl) (short'.1 y rfl)
      same
  cases kind : f.kind with
  | ratingMin | ratingFloor =>
      refine first.value_eq_of_map second kinds labels (by rw [kind]; rfl) rfl rfl
        (fun x => "Rating: " ++ ratingText x ++ "+") (by rw [kind]; intros; rfl)
        fun x y value value' same => low value value' ?_
      rwa [String.append_left_inj, String.append_right_inj] at same
  | ratingMax =>
      refine first.value_eq_of_map second kinds labels (by rw [kind]; rfl) rfl rfl
        (fun x => "Rating: <" ++ ratingText x) (by rw [kind]; intros; rfl)
        fun x y value value' same => ?_
      have sound := first.isSound_of_ratings rating value
      have sound' := second.isSound_of_ratings rating' value'
      rw [value] at short
      rw [value'] at short'
      exact eq_of_ratingText (sound.high x rfl) (sound'.high y rfl) (short.2 x rfl) (short'.2 y rfl)
        ((String.append_right_inj _).mp same)
  | ratingRange =>
      obtain ⟨ratings, value⟩ := first.exists_ratings kind
      obtain ⟨ratings', value'⟩ := second.exists_ratings (kinds ▸ kind)
      have sound := first.isSound_of_ratings rating value
      have sound' := second.isSound_of_ratings rating' value'
      rw [value] at short
      rw [value'] at short'
      refine first.value_eq_of_shown second kinds labels
        (fun ratings : Binary64 × Binary64 => .ratings ⟨some ratings.1, some ratings.2⟩)
        (fun ratings => "Rating: " ++ ratingText ratings.1 ++ "-" ++ ratingText ratings.2)
        (by rw [kind]; intros; rfl) value value' fun same => ?_
      simp only [String.append_assoc, String.append_right_inj] at same
      rw [← String.toList_inj] at same
      simp only [String.toList_append] at same
      obtain ⟨p, soundText, text, _⟩ :=
        Number.Binary64.exists_parts_ratingText (sound.low _ rfl) (short.1 _ rfl)
      obtain ⟨p', soundText', text', _⟩ :=
        Number.Binary64.exists_parts_ratingText (sound'.low _ rfl) (short'.1 _ rfl)
      rw [text, text'] at same
      obtain ⟨lows, highs⟩ := Parts.text_inj soundText soundText' same
      rw [← text, ← text', String.toList_inj] at lows
      exact Prod.ext
        (eq_of_ratingText (sound.low _ rfl) (sound'.low _ rfl) (short.1 _ rfl) (short'.1 _ rfl)
          lows)
        (eq_of_ratingText (sound.high _ rfl) (sound'.high _ rfl) (short.2 _ rfl) (short'.2 _ rfl)
          (String.toList_inj.mp highs))
  | _ =>
      rw [kind] at rating
      cases rating

/-- The word in the label of a medium or of a region is that of the value. -/
theorem value_eq_of_word (first : rule.Reads m f) (second : rule'.Reads m' g)
    (kinds : f.kind = g.kind) (labels : f.label = g.label)
    (word : f.kind = .contentType ∨ f.kind = .country) : f.value = g.value := by
  have allowed := first.allows
  have allowed' := second.allows
  rw [← kinds] at allowed'
  rcases word with kind | kind
  · rw [kind] at allowed allowed'
    obtain ⟨medium, value⟩ := allowed
    obtain ⟨medium', value'⟩ := allowed'
    refine first.value_eq_of_shown second kinds labels (fun medium : Medium => .text medium.name)
      (fun medium => if Value.text medium.name = .text "movie" then "Movies" else "TV Shows")
      (by rw [kind]; intros; rfl) value value' fun same => ?_
    cases medium <;> cases medium' <;> first | rfl | exact absurd same (by decide)
  · rw [kind] at allowed allowed'
    obtain ⟨code, _, value⟩ := allowed
    obtain ⟨code', _, value'⟩ := allowed'
    exact first.value_eq_of_shown second kinds labels .text ("Region: " ++ ·)
      (by rw [kind]; intros; rfl) value value' (String.append_right_inj _).mp

/-- The label of a fragment settles its value, if six digits are enough for its ratings. -/
theorem value_eq (first : rule.Reads m f) (second : rule'.Reads m' g)
    (kinds : f.kind = g.kind) (labels : f.label = g.label) (short : f.value.IsShort)
    (short' : g.value.IsShort) : f.value = g.value := by
  cases kind : f.kind with
  | contentType => exact first.value_eq_of_word second kinds labels (.inl kind)
  | country => exact first.value_eq_of_word second kinds labels (.inr kind)
  | yearFrom | yearTo | yearExact | yearRange =>
      exact first.value_eq_of_year second kinds labels (by rw [kind]; rfl)
  | ratingMin | ratingMax | ratingFloor | ratingRange =>
      exact first.value_eq_of_rating second kinds labels (by rw [kind]; rfl) short short'
  | provider => exact first.value_eq_of_provider second kinds labels kind
  | genre => exact first.value_eq_of_genre second kinds labels kind
  | genreExclude => exact first.value_eq_of_genreExclude second kinds labels kind

/-- A label shows the ratings of the value, and each is shown by a numeral that reads back as the
rating. -/
theorem ratings_shown (reads : rule.Reads m f) (short : f.value.IsShort) {range : RatingRange}
    (value : f.value = .ratings range) :
    f.label = ratingLabel f.kind range f.source ∧
      ∀ x, range.low = some x ∨ range.high = some x →
        Number.Numeral.real? (ratingText x).toList = some x := by
  have allowed := reads.allows
  have labelled := reads.labelled
  have rating : f.kind.isRating = true ∧
      label f.kind (.ratings range) m = .ok (ratingLabel f.kind range (String.ofList m.text)) := by
    rw [value] at allowed
    generalize f.kind = kind at allowed
    cases kind with
    | ratingMin | ratingMax | ratingFloor | ratingRange => exact ⟨rfl, rfl⟩
    | contentType => obtain ⟨_, ⟨⟩⟩ := allowed
    | yearFrom | yearTo | yearExact | yearRange => obtain ⟨_, ⟨⟩, _⟩ := allowed
    | provider => obtain ⟨_, ⟨⟩⟩ := allowed
    | genre | genreExclude => obtain ⟨_, _, ⟨⟩⟩ := allowed
    | country => obtain ⟨_, _, ⟨⟩⟩ := allowed
  have sound := reads.isSound_of_ratings rating.1 value
  rw [value, rating.2, ← reads.source] at labelled
  rw [value] at short
  refine ⟨(Except.ok.inj labelled).symm, fun x side => ?_⟩
  have readsBack (scaled : Extractor.isOnScale x = true) (short : x.IsShort) :
      Number.Numeral.real? (ratingText x).toList = some x := by
    obtain ⟨p, soundText, text, gives⟩ := Number.Binary64.exists_parts_ratingText scaled short
    rw [text, Parts.real?_text soundText, gives]
  rcases side with low | high
  · exact readsBack (sound.low x low) (short.1 x low)
  · exact readsBack (sound.high x high) (short.2 x high)

end Rule.Reads

/-- Fragments of one kind with the same label have the same value, whatever the queries they are
from, if six digits are enough for their ratings; and the numerals that show the ratings in a label
read back as these ratings. -/
theorem value_eq_of_label {run run' : Nat} {query query' : List Char} {f g : Fragment}
    (mem : f ∈ (Table.default.read run query).fragments)
    (mem' : g ∈ (Table.default.read run' query').fragments) (kinds : f.kind = g.kind)
    (labels : f.label = g.label) (short : f.value.IsShort) (short' : g.value.IsShort) :
    f.value = g.value ∧ ∀ range, f.value = .ratings range →
      f.label = ratingLabel f.kind range f.source ∧
        ∀ x, range.low = some x ∨ range.high = some x →
          Number.Numeral.real? (ratingText x).toList = some x := by
  obtain ⟨rule, m, first⟩ := DefaultRules.exists_reads mem
  obtain ⟨rule', m', second⟩ := DefaultRules.exists_reads mem'
  exact ⟨first.value_eq second kinds labels short short',
    fun _ value => first.ratings_shown short value⟩

/-- The same rating typed in two ways, once among other phrases. -/
theorem value_eq_of_label_typed :
    ∃ f ∈ (Table.default.read 0 "movies rated above 7.50".toList).fragments,
      ∃ g ∈ (Table.default.read 1 "rate over 7.5".toList).fragments,
        f.kind = g.kind ∧ f.label = g.label ∧ f.value.IsShort ∧ g.value.IsShort ∧
          f.value = g.value ∧ ∀ range, f.value = .ratings range →
            f.label = ratingLabel f.kind range f.source ∧
              ∀ x, range.low = some x ∨ range.high = some x →
                Number.Numeral.real? (ratingText x).toList = some x := by
  have claimed : (DefaultRules.all[6]?.map fun rule => rule.claims 6 0
      (DefaultRules.triedOn 0 6 "movies rated above 7.50".toList)) =
        some
          [{ id := .made .ratingMin 6 0 7
             kind := .ratingMin
             value := .ratings ⟨some (Number.Decimal.toBinary64 ⟨75, -1⟩), none⟩
             label := "Rating: 7.5+"
             source := "rated above 7.50"
             offsets := List.range' 7 16 }] := by
    decide +kernel
  have claimed' : (DefaultRules.all[6]?.map fun rule => rule.claims 6 1
      (DefaultRules.triedOn 1 6 "rate over 7.5".toList)) =
        some
          [{ id := .made .ratingMin 6 1 0
             kind := .ratingMin
             value := .ratings ⟨some (Number.Decimal.toBinary64 ⟨75, -1⟩), none⟩
             label := "Rating: 7.5+"
             source := "rate over 7.5"
             offsets := List.range 13 }] := by
    decide +kernel
  have mem := DefaultRules.mem_fragments_of_claims claimed (List.mem_singleton_self _)
  have mem' := DefaultRules.mem_fragments_of_claims claimed' (List.mem_singleton_self _)
  have short : (Value.ratings
      ⟨some (Number.Decimal.toBinary64 ⟨75, -1⟩), none⟩).IsShort :=
    ⟨fun x same => ⟨⟨75, -1⟩, by decide, (Option.some.inj same).symm⟩, fun x none => nomatch none⟩
  exact ⟨_, mem, _, mem', rfl, rfl, short, short, value_eq_of_label mem mem' rfl rfl short short⟩

/-- Six digits are not enough for ratings with more. -/
theorem value_ne_of_label_seven :
    ¬ ∀ (run run' : Nat) (query query' : List Char) (f g : Fragment),
      f ∈ (Table.default.read run query).fragments →
        g ∈ (Table.default.read run' query').fragments → f.kind = g.kind → f.label = g.label →
          f.value = g.value := by
  have claimed : (DefaultRules.all[6]?.map fun rule => rule.claims 6 0
      (DefaultRules.triedOn 0 6 "rated above 7.1234567".toList)) =
        some
          [{ id := .made .ratingMin 6 0 0
             kind := .ratingMin
             value := .ratings ⟨some (.ofDecimal false 71234567 (-7)), none⟩
             label := "Rating: 7.12346+"
             source := "rated above 7.1234567"
             offsets := List.range 21 }] := by
    decide +kernel
  have claimed' : (DefaultRules.all[6]?.map fun rule => rule.claims 6 0
      (DefaultRules.triedOn 0 6 "rated above 7.1234568".toList)) =
        some
          [{ id := .made .ratingMin 6 0 0
             kind := .ratingMin
             value := .ratings ⟨some (.ofDecimal false 71234568 (-7)), none⟩
             label := "Rating: 7.12346+"
             source := "rated above 7.1234568"
             offsets := List.range 21 }] := by
    decide +kernel
  have mem := DefaultRules.mem_fragments_of_claims claimed (List.mem_singleton_self _)
  have mem' := DefaultRules.mem_fragments_of_claims claimed' (List.mem_singleton_self _)
  intro same
  have values := same 0 0 _ _ _ _ mem mem' rfl rfl
  revert values
  decide +kernel

end FilmQuery
