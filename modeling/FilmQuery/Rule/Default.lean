/-
# The rules of record

The phrases that queries are understood by, in the order in which they are looked for.  An accepted
phrase is taken out of the text, so earlier rules win where phrases overlap; exclusions come before
the genres they exclude.
-/
import FilmQuery.Rule.Table

namespace FilmQuery

open Catalog (Provider genreWords)

namespace DefaultRules

/-- A shape that ignores case. Every text of this module writes a pattern. -/
def phrase (text : String) : PhraseShape :=
  .ofPattern text ((Pattern.read? text.toList).getD .nothing) true

/-- A rule with an extractor. -/
def reading (text : String) (kind : Kind) (extractor : Extractor) : Rule :=
  { shape := phrase text, kind, extractor := some extractor }

/-- A rule with a fixed value. -/
def meaning (text : String) (kind : Kind) (value : Value) : Rule :=
  { shape := phrase text, kind, fixed := value }

/-- A rule for a provider. -/
def naming (text : String) (provider : Provider) : Rule :=
  meaning text .provider (.numbers [provider.id])

/-- A rule for a region. -/
def located (text : String) (code : String) : Rule := meaning text .country (.text code)

/-- A rating as it is typed: digits, and perhaps a point and more digits. -/
def rating : String := r"(\d+(?:\.\d+)?)"

/-- The phrases for the kind of film. -/
def contentTypes : List Rule :=
  [meaning r"\b(movies?|films?)\b" .contentType (.text "movie"),
    meaning r"\b(tv\s+shows?|tv\s+series|series|television|shows)\b" .contentType (.text "tv")]

/-- The phrases for years. -/
def years : List Rule :=
  [reading r"\b(from|since|after)\s+(\d{4})\b" .yearFrom Extractor.yearFrom,
    reading r"\b(before|until)\s+(\d{4})\b" .yearTo Extractor.yearTo,
    reading r"\bin\s+(\d{4})\b" .yearExact Extractor.yearExact,
    reading r"\b(\d{4})-(\d{4})\b" .yearRange Extractor.yearRange]

/-- The phrases for ratings. -/
def ratings : List Rule :=
  [reading (r"\brated?\s+(above|over|more than|>)\s*" ++ rating ++ r"\b") .ratingMin
      Extractor.ratingMin,
    reading (r"\brated?\s+(below|under|less than|<)\s*" ++ rating ++ r"\b") .ratingMax
      Extractor.ratingMax,
    reading (r"\brated?\s+(?:between\s+)?" ++ rating ++ r"\s*(?:-|to|and)\s*" ++ rating ++ r"\b")
      .ratingRange Extractor.ratingRange,
    reading (r"\b(?:rated|rating)\s+(?:of\s+)?(at least|minimum(?:\s+of)?)\s+" ++ rating ++ r"\b")
      .ratingFloor Extractor.ratingMin,
    reading (r"\brated?\s*" ++ rating ++ r"\+") .ratingMin Extractor.ratingMin]

/-- The phrases for providers. -/
def providers : List Rule :=
  [naming r"\bon\s+(netflix)\b" .netflix,
    naming r"\bon\s+(disney\s*(?:\+|plus)|disney)(?!\w)" .disneyPlus,
    naming r"\bon\s+(amazon\s+prime\s+video|amazon\s+prime|prime\s+video|amazon|prime)\b"
      .amazonPrimeVideo,
    naming r"\bon\s+(hbo\s+max|hbo)\b" .hboMax,
    naming r"\bon\s+(hulu)\b" .hulu,
    naming r"\bon\s+(apple\s+tv\s*(?:\+|plus)|apple\s+tv)(?!\w)" .appleTvPlus]

/-- The phrases for genres. -/
def genres : List Rule :=
  [reading (r"\b(?:no|without|not|except)\s+(" ++ genreWords ++ r")\b") .genreExclude
      Extractor.genre,
    reading (r"\b(" ++ genreWords ++ r")\b") .genre Extractor.genre]

/-- The phrases for regions. -/
def regions : List Rule :=
  [located r"\bin\s+(?:the\s+)?(usa|us|america|united\s+states)\b" "US",
    located r"\bin\s+(?:the\s+)?(uk|great\s+britain|britain|united\s+kingdom)\b" "GB",
    located r"\bin\s+(india)\b" "IN",
    located r"\bin\s+(japan)\b" "JP",
    located r"\bin\s+(south\s+korea|korea)\b" "KR",
    located r"\bin\s+(france)\b" "FR",
    located r"\bin\s+(germany)\b" "DE",
    located r"\bin\s+(canada)\b" "CA"]

/-- Every phrase, in the order in which they are looked for. -/
def all : List Rule := contentTypes ++ years ++ ratings ++ providers ++ genres ++ regions

end DefaultRules

/-- The table of the rules of record. -/
def Table.default : Table := ⟨DefaultRules.all, by decide +kernel⟩

end FilmQuery
