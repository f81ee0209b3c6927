import Mathlib
import PipelinePlan.Text.Blank

namespace PipelinePlan.Text

/-- A text that is not blank and has no blanks around it. -/
structure Neat (s : String) : Prop where
  ne_empty : s ≠ ""
  first : ∀ c, s.toList.head? = some c → isBlank c = false
  last : ∀ c, s.toList.getLast? = some c → isBlank c = false

theorem head?_trimChars {cs : List Char} {c : Char} (h : (trimChars cs).head? = some c) :
    isBlank c = false := by
  obtain ⟨tail, htail⟩ := List.head?_eq_some_iff.mp h
  obtain ⟨rest, hrest⟩ : trimChars cs <+: cs.dropWhile isBlank := List.rdropWhile_prefix isBlank _
  have hnot := List.head?_dropWhile_not isBlank cs
  rw [← hrest, htail] at hnot
  simpa using hnot

theorem getLast?_trimChars {cs : List Char} {c : Char} (h : (trimChars cs).getLast? = some c) :
    isBlank c = false := by
  rw [trimChars, trimEndChars, List.getLast?_reverse] at h
  have hnot := List.head?_dropWhile_not isBlank (trimStartChars cs).reverse
  rw [h] at hnot
  simpa using hnot

theorem trimChars_trimChars (cs : List Char) : trimChars (trimChars cs) = trimChars cs := by
  have hstart : trimStartChars (trimChars cs) = trimChars cs := by
    cases htrimmed : trimChars cs with
    | nil => rfl
    | cons c rest =>
      have hc : isBlank c = false := head?_trimChars (by rw [htrimmed, List.head?_cons])
      exact List.dropWhile_cons_of_neg (by simp [hc])
  rw [trimChars, hstart]
  exact List.rdropWhile_idempotent isBlank _

@[simp] theorem toList_trim (s : String) : (trim s).toList = trimChars s.toList :=
  String.toList_ofList

theorem neat_trim {s : String} (h : trim s ≠ "") : Neat (trim s) where
  ne_empty := h
  first c hc := head?_trimChars (by rwa [toList_trim] at hc)
  last c hc := getLast?_trimChars (by rwa [toList_trim] at hc)

end PipelinePlan.Text
