/-
# What a screen tells

What can be read off a screen: the texts in its fields, the choices made, the element under a
heading, the buttons that remove fragments, and the errors.  What a run of the search page shows
tells of the page (`SearchPage.tells_screen`): its query, its medium, its filters and its fragments.
-/
import FilmQuery.Proofs.Screen.Columns

namespace FilmQuery

/-- The fragment that a button removes. -/
def Button.chip? (b : Button) : Option FragmentId :=
  match b.key with
  | some (.chip id) => some id
  | _ => none

/-- Whether a button removes a fragment. -/
def Button.removes (b : Button) : Bool := b.chip?.isSome

namespace Element

/-- The text in a field. -/
def fieldText? : Element → Option String
  | .textInput _ value _ => some value
  | _ => none

/-- The choice that is made. -/
def choice? : Element → Option String
  | .radio _ _ value => some value
  | _ => none

/-- The error that is shown. -/
def failure? : Element → Option String
  | .failure error => some error
  | _ => none

/-- The text of a heading inside a page. -/
def subheading? : Element → Option String
  | .subheader text => some text
  | _ => none

end Element

namespace Screen

variable (screen : Screen)

/-- The texts in the fields. -/
def fieldTexts : List String := screen.main.filterMap Element.fieldText?

/-- The choices made beside the page. -/
def choices : List String := screen.sidebar.filterMap Element.choice?

/-- The errors that ended the page. -/
def failures : List String := (screen.main ++ screen.sidebar).filterMap Element.failure?

/-- The element under a heading. -/
def under? (heading : String) : Option Element :=
  (screen.main.dropWhile fun e => e.subheading? != some heading)[1]?

/-- The buttons that remove fragments, in the order in which they are read. -/
def chipButtons : List Button :=
  (Element.readEach (screen.main ++ screen.sidebar)).flatten.filter Button.removes

end Screen

/-- The heading of the filters. -/
def filterHeading : String := "🎛️ Current filters"

/-- What is shown of filters. -/
def Element.ofFilters (filters : Filters) : Element :=
  if filters.isEmpty then .info "No filters applied yet." else .json (.obj filters.toFields)

namespace SearchPage

variable {page : SearchPage} {chips : List Fragment}

theorem chipColumns_eq (columns : Nat) (chips : List Fragment) :
    chipColumns columns chips = .ofButtons (deal columns (chips.map chipButton)) := by
  rw [chipColumns, Element.ofButtons, deal_map, List.map_map]
  simp only [Function.comp_def, List.map_map]

theorem columnCount_pos (nonempty : chips ≠ []) : 0 < columnCount chips :=
  Nat.lt_min.mpr ⟨List.length_pos_iff.mpr nonempty, by decide⟩

/-- What a page has from the line above its filters on. -/
def below (page : SearchPage) : List Element :=
  [.markdown "---", .subheader filterHeading, .ofFilters page.session.filters] ++ page.debugPanels

/-- What a page has between its field and the line above its filters. -/
def between (page : SearchPage) : List Element :=
  (if page.shownQuery = "" then sampleButtons else []) ++
    if !page.session.chips.isEmpty then [chipPanel page.session.chips]
    else if page.shownQuery ≠ "" then [.info "No filters detected in this search."]
    else []

theorem main_eq (page : SearchPage) : page.main = page.top ++ page.between ++ page.below := by
  simp only [main, between, below, List.append_assoc]
  rfl

/-- Elements with no field and no error, and with no button that removes a fragment but the given
ones. -/
structure AddsOnly (elements : List Element) (buttons : List Button) : Prop where
  fieldTexts : elements.filterMap Element.fieldText? = []
  failures : elements.filterMap Element.failure? = []
  buttons : (Element.readEach elements).flatten.filter Button.removes = buttons

theorem AddsOnly.nil : AddsOnly [] [] := ⟨rfl, rfl, rfl⟩

theorem removing_append (first second : List Element) :
    (Element.readEach (first ++ second)).flatten.filter Button.removes =
      (Element.readEach first).flatten.filter Button.removes ++
        (Element.readEach second).flatten.filter Button.removes := by
  simp only [Element.readEach_eq, List.map_append, List.flatten_append, List.filter_append]

theorem AddsOnly.append {first second : List Element} {buttons others : List Button}
    (left : AddsOnly first buttons) (right : AddsOnly second others) :
    AddsOnly (first ++ second) (buttons ++ others) where
  fieldTexts := by rw [List.filterMap_append, left.fieldTexts, right.fieldTexts, List.nil_append]
  failures := by rw [List.filterMap_append, left.failures, right.failures, List.nil_append]
  buttons := by rw [removing_append, left.buttons, right.buttons]

theorem removes_of_mem {b : Button} (mem : b ∈ chips.map chipButton) : b.removes = true := by
  obtain ⟨chip, _, rfl⟩ := List.mem_map.mp mem
  rfl

theorem addsOnly_samples : AddsOnly sampleButtons [] := ⟨rfl, rfl, by decide +kernel⟩

theorem addsOnly_panel (nonempty : chips ≠ []) :
    AddsOnly [chipPanel chips] (chips.map chipButton) := by
  refine ⟨rfl, rfl, ?_⟩
  have heading : Element.readButtons chipHeading = [] := rfl
  have dealt : Element.readButtons (chipColumns (columnCount chips) chips) =
      chips.map chipButton := by
    rw [chipColumns_eq, Element.readButtons_ofButtons, rowByRow_deal (columnCount_pos nonempty)]
  have all : (chips.map chipButton).filter Button.removes = chips.map chipButton :=
    List.filter_eq_self.mpr fun _ => removes_of_mem
  have others : (Element.readButtons chipActions).filter Button.removes = [] := by decide +kernel
  calc
    _ = ([Element.readButtons chipHeading,
          Element.readButtons (chipColumns (columnCount chips) chips),
          Element.readButtons chipActions].flatten ++ []).filter Button.removes := rfl
    _ = chips.map chipButton := by
      simp only [heading, dealt, List.flatten_cons, List.flatten_nil, List.append_nil,
        List.nil_append, List.filter_append, all, others]

theorem addsOnly_between (page : SearchPage) :
    AddsOnly page.between (page.session.chips.map chipButton) := by
  have offered : AddsOnly (if page.shownQuery = "" then sampleButtons else []) [] := by
    split
    · exact addsOnly_samples
    · exact .nil
  refine offered.append ?_
  cases chips : page.session.chips with
  | nil =>
      simp only [List.isEmpty_nil, Bool.not_true, Bool.false_eq_true, if_false, List.map_nil]
      split
      · exact ⟨rfl, rfl, rfl⟩
      · exact .nil
  | cons chip rest =>
      exact addsOnly_panel (List.cons_ne_nil chip rest)

/-- What a page shows about its inner workings cannot be mistaken for anything else, as long as the
patch applied last can be written down. -/
theorem addsOnly_debugPanels (printable : ∀ patch ∈ page.lastPatch, ∃ text, patch.text = .ok text) :
    AddsOnly page.debugPanels [] := by
  unfold debugPanels
  split
  · have fragments : AddsOnly
        [.markdown "---", .subheader "🔍 Compiler output (debug)",
          if page.session.chips.isEmpty then .info "No fragments for the current text."
          else
            .table ["id", "kind", "label", "source"]
              ((fragmentRows page.session.chips).map (·.map Prod.snd))] [] := by
      split <;> exact ⟨rfl, rfl, rfl⟩
    refine AddsOnly.append fragments ?_
    cases last : page.lastPatch with
    | none => exact .nil
    | some patch =>
        obtain ⟨text, written⟩ := printable patch last
        simp only [written]
        exact ⟨rfl, rfl, rfl⟩
  · exact .nil

end SearchPage

/-- A screen tells of a page: its query, its medium, its filters, and its fragments, each of which
has a button. -/
structure Screen.Tells (screen : Screen) (page : SearchPage) : Prop where
  fieldTexts : screen.fieldTexts = [page.shownQuery]
  choices : screen.choices = [page.shownMedium.label]
  filters : screen.under? filterHeading = some (.ofFilters page.session.filters)
  chipButtons : screen.chipButtons = page.session.chips.map SearchPage.chipButton
  failures : screen.failures = []

namespace SearchPage

variable {page : SearchPage}

theorem unheaded_between (page : SearchPage) : ∀ e ∈ page.between, e.subheading? = none := by
  intro e mem
  rcases List.mem_append.mp mem with offered | found
  · split at offered
    · simp only [sampleButtons, List.mem_cons, List.not_mem_nil, or_false] at offered
      rcases offered with rfl | rfl <;> rfl
    · cases offered
  · split at found
    · rw [List.mem_singleton.mp found]
      rfl
    · split at found
      · rw [List.mem_singleton.mp found]
        rfl
      · cases found

/-- What a run of the page shows tells of the page. -/
theorem tells_screen (printable : ∀ patch ∈ page.lastPatch, ∃ text, patch.text = .ok text) :
    page.screen.Tells page := by
  have adds := page.addsOnly_between
  have debug := addsOnly_debugPanels printable
  have filters : AddsOnly
      [.markdown "---", .subheader filterHeading, .ofFilters page.session.filters] [] := by
    unfold Element.ofFilters
    split <;> exact ⟨rfl, rfl, rfl⟩
  have below : AddsOnly page.below [] := filters.append debug
  rw [screen, main_eq]
  constructor
  · change List.filterMap _ (_ ++ _ ++ _) = _
    rw [List.filterMap_append, List.filterMap_append, adds.fieldTexts, below.fieldTexts]
    rfl
  · rfl
  · have passed : ∀ e ∈ page.top ++ page.between,
        (e.subheading? != some filterHeading) = true := by
      intro e mem
      rcases List.mem_append.mp mem with inTop | inBetween
      · simp only [top, List.mem_cons, List.not_mem_nil, or_false] at inTop
        rcases inTop with rfl | rfl | rfl <;> rfl
      · rw [page.unheaded_between e inBetween]
        rfl
    change (List.dropWhile _ (_ ++ _ ++ _))[1]? = _
    rw [List.dropWhile_append_of_pos passed]
    simp [SearchPage.below, Element.subheading?]
  · have top : (Element.readEach page.top).flatten.filter Button.removes = [] := rfl
    have beside : (Element.readEach page.sidebar).flatten.filter Button.removes = [] := rfl
    change (Element.readEach ((_ ++ _ ++ _) ++ _)).flatten.filter _ = _
    rw [removing_append, removing_append, removing_append, adds.buttons, below.buttons, top, beside,
      List.nil_append, List.append_nil, List.append_nil]
  · change List.filterMap _ ((_ ++ _ ++ _) ++ _) = _
    rw [List.filterMap_append, List.filterMap_append, List.filterMap_append, adds.failures,
      below.failures]
    rfl

end SearchPage

end FilmQuery
