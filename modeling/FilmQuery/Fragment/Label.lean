/-
# Labels

The few words by which a fragment is shown.  Where its value has nothing to show, the phrase itself
is the label.
-/
import FilmQuery.Fragment.Basic
import FilmQuery.Pattern.Occurrence

namespace FilmQuery

open Number (Binary64)

/-- A rating as it would be typed: a whole number without a point, any other with at most six
digits. -/
def ratingText (x : Binary64) : String :=
  match x.integer? with
  | some n => String.ofList (Json.intText n)
  | none => x.significantText 6

/-- What a group has met, as it is shown. -/
def shownGroup (m : Occurrence) (index : Nat) : Except Fault String :=
  (m.group index).map fun
    | some text => String.ofList text
    | none => "None"

/-- The label of years. -/
def yearLabel (kind : Kind) (r : YearRange) (phrase : String) : String :=
  match kind, r.start, r.stop with
  | .yearExact, some start, _ => "Year: " ++ start
  | .yearRange, some start, some stop => "Years: " ++ start ++ "-" ++ stop
  | .yearFrom, some start, _ => "Since: " ++ start
  | .yearTo, _, some stop => "Until: " ++ stop
  | _, _, _ => phrase

/-- The label of ratings. -/
def ratingLabel (kind : Kind) (r : RatingRange) (phrase : String) : String :=
  match kind, r.low, r.high with
  | .ratingRange, some low, some high => "Rating: " ++ ratingText low ++ "-" ++ ratingText high
  | .ratingMin, some low, _ => "Rating: " ++ ratingText low ++ "+"
  | .ratingFloor, some low, _ => "Rating: " ++ ratingText low ++ "+"
  | .ratingMax, _, some high => "Rating: <" ++ ratingText high
  | _, _, _ => phrase

/-- The label of a fragment that was read from an occurrence. Kinds with years or ratings need a
value with them, and a region is shown by its value. -/
def label (kind : Kind) (value : Value) (m : Occurrence) : Except Fault String :=
  match kind with
  | .contentType => .ok (if value = .text "movie" then "Movies" else "TV Shows")
  | .yearFrom | .yearTo | .yearExact | .yearRange =>
    match value with
    | .years r => .ok (yearLabel kind r (String.ofList m.text))
    | _ => .error .wrongForm
  | .ratingMin | .ratingMax | .ratingFloor | .ratingRange =>
    match value with
    | .ratings r => .ok (ratingLabel kind r (String.ofList m.text))
    | _ => .error .wrongForm
  | .provider => (shownGroup m 1).map ("On: " ++ ·)
  | .genre => .ok ("Genre: " ++ String.ofList m.text)
  | .genreExclude => (shownGroup m 1).map ("Exclude: " ++ ·)
  | .country =>
    match value.textFault? none with
    | some _ => .error .noText
    | none => .ok ("Region: " ++ value.display)

end FilmQuery
