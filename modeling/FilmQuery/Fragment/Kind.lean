/-
# Kinds of fragments

What a recognised phrase says about the films to search for.
-/

namespace FilmQuery

/-- The kind of a fragment. -/
inductive Kind where
  | contentType
  | yearFrom
  | yearTo
  | yearExact
  | yearRange
  | ratingMin
  | ratingMax
  | ratingFloor
  | ratingRange
  | provider
  | genre
  | genreExclude
  | country
  deriving DecidableEq, Repr

namespace Kind

/-- The name of a kind in identifiers, tables and logs. -/
def name : Kind → String
  | .contentType => "content_type"
  | .yearFrom => "year_from"
  | .yearTo => "year_to"
  | .yearExact => "year_exact"
  | .yearRange => "year_range"
  | .ratingMin => "rating_min"
  | .ratingMax => "rating_max"
  | .ratingFloor => "rating_floor"
  | .ratingRange => "rating_range"
  | .provider => "provider"
  | .genre => "genre"
  | .genreExclude => "genre_exclude"
  | .country => "country"

/-- Every kind. -/
def all : List Kind :=
  [.contentType, .yearFrom, .yearTo, .yearExact, .yearRange, .ratingMin, .ratingMax, .ratingFloor,
    .ratingRange, .provider, .genre, .genreExclude, .country]

/-- The kind of a name. -/
def ofName? (name : String) : Option Kind := all.find? (·.name == name)

/-- Whether fragments of this kind carry years. -/
def isYear : Kind → Bool
  | .yearFrom | .yearTo | .yearExact | .yearRange => true
  | _ => false

/-- Whether fragments of this kind carry ratings. -/
def isRating : Kind → Bool
  | .ratingMin | .ratingMax | .ratingFloor | .ratingRange => true
  | _ => false

end Kind

end FilmQuery
