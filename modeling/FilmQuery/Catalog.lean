/-
# The catalog's vocabulary

The numbers by which the catalog knows genres and providers, the words that name a genre in a
query, and how such a word is brought to the form under which it is looked up.
-/
import FilmQuery.Text.Blank
import FilmQuery.Text.LetterCase

namespace FilmQuery.Catalog

open Text

/-- The numbers of the genres, by their folded names. -/
def genreIds : List (String × Int) :=
  [("action", 28), ("thriller", 53), ("comedy", 35), ("drama", 18), ("horror", 27),
    ("scifi", 878), ("science fiction", 878), ("romance", 10749), ("documentary", 99),
    ("animation", 16), ("animated", 16), ("crime", 80), ("family", 10751), ("fantasy", 14),
    ("history", 36), ("music", 10402), ("mystery", 9648), ("war", 10752), ("western", 37)]

/-- The words for genres, as alternatives of a pattern. -/
def genreWords : String :=
  r"science\s+fiction|sci-?fi|action|thrillers?|comed(?:y|ies)|dramas?|horror|" ++
    r"romances?|documentar(?:y|ies)|animation|animated|crime|family|fantasy|" ++
    r"history|music|myster(?:y|ies)|war|westerns?"

/-- The providers that can be asked for. -/
inductive Provider where
  | netflix
  | disneyPlus
  | amazonPrimeVideo
  | hboMax
  | hulu
  | appleTvPlus
  deriving DecidableEq, Repr

/-- The number of a provider. -/
def Provider.id : Provider → Int
  | .netflix => 8
  | .disneyPlus => 337
  | .amazonPrimeVideo => 119
  | .hboMax => 384
  | .hulu => 15
  | .appleTvPlus => 350

/-- Queries that show what can be asked. -/
def sampleQueries : List String :=
  ["action movies from 2020 on Netflix rated above 7",
    "comedy series since 2010 with high ratings",
    "thriller movies on HBO rated 8+",
    "animated films on Disney+ rated above 6",
    "sci-fi shows since 2015 on Amazon Prime",
    "documentaries in 2020 in the US",
    "drama series in Korea rated above 8",
    "horror movies before 2010 rated 7+"]

/-- The text with every run of blanks written as one space; `inRun` says whether a blank comes just
before the text. -/
def squeeze (inRun : Bool) : List Char → List Char
  | [] => []
  | c :: rest =>
    if isBlank c then (if inRun then squeeze true rest else ' ' :: squeeze true rest)
    else c :: squeeze false rest

/-- A plural in `ies` as a singular in `y`. -/
def singularY (word : List Char) : List Char :=
  match word.reverse with
  | 's' :: 'e' :: 'i' :: stem => ('y' :: stem).reverse
  | _ => word

/-- The word without an `s` at its end. -/
def withoutS (word : List Char) : List Char :=
  match word.reverse with
  | 's' :: stem => stem.reverse
  | _ => word

/-- The folded name of a genre word: without case, hyphens and plural, and with single spaces. -/
def foldedGenre (word : List Char) : List Char :=
  let folded := squeeze false ((trim word).flatMap fold)
  withoutS (singularY (folded.filter (· != '-')))

/-- The number of the genre that a word names. -/
def genreId? (word : List Char) : Option Int := genreIds.lookup (String.ofList (foldedGenre word))

end FilmQuery.Catalog
