/-
# Searching the ways of a pattern

The ways of a pattern are tried one after the other until one of them leads to a place that is
accepted, and the rest are never worked out.  The search goes depth first: what comes behind a part
of a pattern is tried at each place to which the part leads.  `seek_eq` says that this is the first
acceptable place among all ways.
-/
import FilmQuery.Pattern.Basic

namespace FilmQuery.Pattern

open Text

/-- What is to be done at a place: where it leads in the end, if it leads anywhere. -/
abbrev Onward := Place → Option Place

/-- Goes on from a place and, if that leads nowhere, tries something else. -/
def orElse (first : Option Place) (second : Unit → Option Place) : Option Place :=
  match first with
  | some q => some q
  | none => second ()

/-- Goes on behind a step taken a number of times. -/
def seekExactly (step : Onward → Onward) : Nat → Onward → Onward
  | 0, onward => onward
  | n + 1, onward => step (seekExactly step n onward)

/-- Goes on behind a step taken up to a number of times. -/
def seekFurther (step : Onward → Onward) (eager : Bool) : Nat → Onward → Onward
  | 0, onward, p => onward p
  | limit + 1, onward, p =>
    let longer : Unit → Option Place := fun _ =>
      step (fun q =>
        if p.position < q.position then seekFurther step eager limit onward q else onward q) p
    if eager then orElse (longer ()) fun _ => onward p else orElse (onward p) longer

/-- Goes on behind the next character, if it passes the test. -/
def seekChar (test : Char → Bool) (onward : Onward) (p : Place) : Option Place :=
  match p.rest with
  | c :: rest => if test c then onward ⟨some c, p.position + 1, rest, p.captures⟩ else none
  | [] => none

/-- Goes on behind a pattern: tries its ways from a place in their order, until one leads on. -/
def seek (blind : Bool) : Pattern → Onward → Onward
  | .nothing, onward, p => onward p
  | .char c, onward, p => seekChar (fun d => if blind then sameLetter c d else c == d) onward p
  | .oneOf members, onward, p => seekChar (isIn blind members) onward p
  | .any, onward, p => seekChar (· != '\n') onward p
  | .boundary, onward, p => if p.isBoundary then onward p else none
  | .atStart, onward, p => if p.position = 0 then onward p else none
  | .atEnd, onward, p => if p.rest = [] ∨ p.rest = ['\n'] then onward p else none
  | .seq a b, onward, p => seek blind a (seek blind b onward) p
  | .alt a b, onward, p => orElse (seek blind a onward p) fun _ => seek blind b onward p
  | .group index body, onward, p => seek blind body (fun q => onward (p.remember index q)) p
  | .absent body, onward, p => if (seek blind body some p).isNone then onward p else none
  | .repeated least most eager body, onward, p =>
    seekExactly (seek blind body) least
      (fun q => seekFurther (seek blind body) eager (allowance least most q) onward q) p

private theorem orElse_eq (first : Option Place) (second : Unit → Option Place) :
    orElse first second = first.or (second ()) := by
  cases first <;> rfl

private theorem seekChar_eq (test : Char → Bool) (onward : Onward) (p : Place) :
    seekChar test onward p = (p.take test).findSome? onward := by
  unfold seekChar Place.take
  cases p.rest with
  | nil => rfl
  | cons c rest => cases h : test c <;> simp [h]

private theorem findSome?_flatMap (f : Place → List Place) (onward : Onward) (places : List Place) :
    (places.flatMap f).findSome? onward = places.findSome? fun q => (f q).findSome? onward := by
  induction places with
  | nil => rfl
  | cons q rest ih =>
    rw [List.flatMap_cons, List.findSome?_append, ih, List.findSome?_cons]
    cases (f q).findSome? onward <;> rfl

/-- A step that is sought as it is listed. -/
private def Agrees (listed : Place → List Place) (sought : Onward → Onward) : Prop :=
  ∀ onward p, sought onward p = (listed p).findSome? onward

private theorem Agrees.exactly {listed : Place → List Place} {sought : Onward → Onward}
    (step : Agrees listed sought) (n : Nat) :
    Agrees (Pattern.exactly listed n) (seekExactly sought n) := by
  induction n with
  | zero => intro onward p; simp [seekExactly, Pattern.exactly]
  | succ n ih =>
    intro onward p
    rw [seekExactly, Pattern.exactly, findSome?_flatMap, step]
    congr 1
    funext q
    exact ih onward q

private theorem Agrees.further {listed : Place → List Place} {sought : Onward → Onward}
    (step : Agrees listed sought) (eager : Bool) (limit : Nat) :
    Agrees (Pattern.further listed eager limit) (seekFurther sought eager limit) := by
  induction limit with
  | zero => intro onward p; simp [seekFurther, Pattern.further]
  | succ limit ih =>
    intro onward p
    have longer : sought (fun q =>
          if p.position < q.position then seekFurther sought eager limit onward q else onward q) p =
        ((listed p).flatMap fun q =>
          if p.position < q.position then Pattern.further listed eager limit q
          else [q]).findSome? onward := by
      rw [findSome?_flatMap, step]
      congr 1
      funext q
      split
      · exact ih onward q
      · simp
    cases eager
    · rw [seekFurther, Pattern.further]
      simp only [Bool.false_eq_true, if_false, orElse_eq, longer, List.findSome?_cons]
      cases onward p <;> rfl
    · simp [seekFurther, Pattern.further, orElse_eq, longer, List.findSome?_append]

/-- The search finds the first acceptable place among all ways. -/
theorem seek_eq (blind : Bool) (pattern : Pattern) (onward : Onward) (p : Place) :
    pattern.seek blind onward p = (pattern.ways blind p).findSome? onward := by
  induction pattern generalizing onward p with
  | nothing => simp [seek, ways]
  | char c => exact seekChar_eq _ onward p
  | oneOf members => exact seekChar_eq _ onward p
  | any => exact seekChar_eq _ onward p
  | boundary => simp only [seek, ways]; split <;> simp
  | atStart => simp only [seek, ways]; split <;> simp
  | atEnd => simp only [seek, ways]; split <;> simp
  | seq a b first second =>
    rw [seek, ways, findSome?_flatMap, first]
    congr 1
    funext q
    exact second onward q
  | alt a b first second => rw [seek, ways, List.findSome?_append, orElse_eq, first, second]
  | group index body inner => rw [seek, ways, inner, List.findSome?_map]; rfl
  | absent body inner =>
    simp only [seek, ways, inner]
    cases ways blind body p <;> simp
  | repeated least most eager body inner =>
    rw [seek, ways, findSome?_flatMap, Agrees.exactly (fun onward p => inner onward p) least]
    congr 1
    funext q
    exact Agrees.further (fun onward p => inner onward p) eager _ onward q

end FilmQuery.Pattern
