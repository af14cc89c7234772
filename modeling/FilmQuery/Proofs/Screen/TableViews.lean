/-
# What the table page shows

The last section of the table page, the one about the last evaluation, is a matter of what was read
of the results, whatever the session (`TablePage.beneath_main`), and only there can anything go
wrong (`TablePage.failures_main`).
-/
import FilmQuery.Proofs.Screen.Views
import FilmQuery.Screen.TablePage

namespace FilmQuery

/-- The elements below a heading. -/
def Screen.beneath (screen : Screen) (heading : String) : List Element :=
  (screen.main.dropWhile fun e => e.subheading? != some heading).tail

namespace TablePage

theorem beneath_main (tables : TableLibrary) (session : Session) (read : Except PageError Loaded) :
    Screen.beneath { main := main tables session read } evaluationHeading =
      evaluation tables read := by
  have passed : ∀ e ∈ introduction session, (e.subheading? != some evaluationHeading) = true := by
    have kinds : (kindSection session.counts).subheading? = none := by
      unfold kindSection
      split <;> rfl
    intro e mem
    simp only [introduction, List.mem_cons, List.not_mem_nil, or_false] at mem
    rcases mem with rfl | rfl | rfl | rfl | rfl | rfl | rfl <;> first | rw [kinds]; rfl | rfl
  rw [Screen.beneath, main, List.dropWhile_append_of_pos passed]
  simp [Element.subheading?]

/-- Nothing goes wrong above the section about the last evaluation. -/
theorem failures_main (tables : TableLibrary) (session : Session)
    (read : Except PageError Loaded) :
    Screen.failures { main := main tables session read } =
      (evaluation tables read).filterMap Element.failure? := by
  have kinds : (kindSection session.counts).failure? = none := by
    unfold kindSection
    split <;> rfl
  have above : (introduction session).filterMap Element.failure? = [] := by
    simp only [introduction, List.filterMap_cons, kinds]
    rfl
  rw [Screen.failures, List.append_nil, main, List.filterMap_append, above]
  rfl

end TablePage

end FilmQuery
