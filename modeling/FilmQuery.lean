import FilmQuery.Main
import FilmQuery.Proofs.Query.Recognition
import FilmQuery.Proofs.Query.Silence
import FilmQuery.Proofs.Query.Source
import FilmQuery.Proofs.Query.Stages
import FilmQuery.Proofs.Query.Uncased
import FilmQuery.Proofs.Rule.Labels
import FilmQuery.Proofs.Screen.Agreement
import FilmQuery.Proofs.Session.Reapply
import FilmQuery.Proofs.Pattern.Noting
import FilmQuery.Proofs.Rule.YearOrder
import FilmQuery.Proofs.Pattern.Closing
import FilmQuery.Proofs.Rule.Numerals
import FilmQuery.Proofs.Pattern.Reaching
import FilmQuery.Proofs.Pattern.Spellings
import FilmQuery.Proofs.Rule.Exclusions
import FilmQuery.Proofs.Query.Exclusion
import FilmQuery.Proofs.Pattern.Respacing
import FilmQuery.Proofs.Pattern.Respaced
import FilmQuery.Proofs.Pattern.Sweeping
import FilmQuery.Proofs.Query.Respaced
import FilmQuery.Proofs.Patch.Composition
import FilmQuery.Proofs.Rule.GenreNames
import FilmQuery.Proofs.Session.Applying
import FilmQuery.Proofs.Rule.Verdicts
import FilmQuery.Proofs.Patch.Writers
import FilmQuery.Proofs.Patch.Removing
import FilmQuery.Proofs.Patch.Reordering
import FilmQuery.Proofs.Screen.Loading
import FilmQuery.Proofs.Screen.Returning
import FilmQuery.Proofs.Screen.FirstRun
import FilmQuery.Proofs.Evaluation.Misread
import FilmQuery.Proofs.Rule.Faults
import FilmQuery.Proofs.Evaluation.Saved
import FilmQuery.Proofs.Query.Listed
import FilmQuery.Proofs.Patch.Printed
import FilmQuery.Proofs.Rule.YearTexts
