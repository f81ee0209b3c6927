import Mathlib
import PipelinePlan.Text.Affix

namespace PipelinePlan.Text

variable {α : Type} {p : α → Bool}

theorem pieces_ne_nil (p : α → Bool) (cs : List α) : pieces p cs ≠ [] := by
  cases cs with
  | nil => simp [pieces]
  | cons c cs =>
    simp only [pieces]
    split
    · simp
    · split <;> simp

theorem pieces_append_cons {c : α} (hc : p c = true) (before after : List α) :
    pieces p (before ++ c :: after) = pieces p before ++ pieces p after := by
  induction before with
  | nil => simp [pieces, hc]
  | cons d before ih =>
    rw [List.cons_append, pieces, pieces, ih]
    cases hpieces : pieces p before with
    | nil => exact absurd hpieces (pieces_ne_nil p before)
    | cons piece rest =>
      rw [List.cons_append]
      split <;> rfl

theorem lines_append_cons (before after : List Char) :
    lines (before ++ '\n' :: after) =
      (pieces (· == '\n') before).map dropReturn ++ lines after := by
  have hne := pieces_ne_nil (· == '\n') after
  have hpieces : pieces (· == '\n') (before ++ '\n' :: after) =
      pieces (· == '\n') before ++ pieces (· == '\n') after :=
    pieces_append_cons (by simp) before after
  simp only [lines, hpieces, List.dropLast_append_of_ne_nil hne,
    List.getLast?_append_of_ne_nil _ hne, List.map_append, List.append_assoc]

/-- A text that is cut after a line feed has the lines of its two parts. -/
theorem lines_append (before after : List Char) :
    lines (before ++ '\n' :: after) = lines (before ++ ['\n']) ++ lines after := by
  have hnil : lines [] = [] := rfl
  rw [lines_append_cons, lines_append_cons, hnil, List.append_nil]

end PipelinePlan.Text
