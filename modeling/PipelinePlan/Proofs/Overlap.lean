import Mathlib
import PipelinePlan.Overlap

namespace PipelinePlan.Overlap

theorem Score.lt_iff {a b : Score} :
    a.lt b = true ↔ a.count < b.count ∨ a.count = b.count ∧ a.length < b.length := by
  simp [Score.lt]

theorem Score.lt_false_iff {a b : Score} :
    a.lt b = false ↔ b.count < a.count ∨ a.count = b.count ∧ b.length ≤ a.length := by
  rw [← Bool.not_eq_true, Score.lt_iff]
  omega

def scoreAt (wanted : List (List Char)) (candidates : List String) (i : Nat) : Option Score :=
  (candidates[i]?).bind (score? wanted)

theorem scoreAt_concat_of_lt {wanted : List (List Char)} {candidates : List String} {last : String}
    {i : Nat} (h : i < candidates.length) :
    scoreAt wanted (candidates ++ [last]) i = scoreAt wanted candidates i := by
  rw [scoreAt, List.getElem?_append_left h, scoreAt]

theorem scoreAt_concat_length {wanted : List (List Char)} {candidates : List String}
    {last : String} :
    scoreAt wanted (candidates ++ [last]) candidates.length = score? wanted last := by
  rw [scoreAt, List.getElem?_concat_length, Option.bind_some]

theorem scoreAt_eq_none_of_le {wanted : List (List Char)} {candidates : List String} {i : Nat}
    (h : candidates.length ≤ i) : scoreAt wanted candidates i = none := by
  rw [scoreAt, List.getElem?_eq_none h, Option.bind_none]

theorem lt_of_scoreAt_eq_some {wanted : List (List Char)} {candidates : List String} {i : Nat}
    {score : Score} (h : scoreAt wanted candidates i = some score) : i < candidates.length := by
  by_contra hle
  rw [scoreAt_eq_none_of_le (by omega)] at h
  cases h

/-- The scores after one more candidate are the earlier ones and its own. -/
theorem scoreAt_concat_eq_some {wanted : List (List Char)} {candidates : List String}
    {last : String} {i : Nat} {score : Score}
    (h : scoreAt wanted (candidates ++ [last]) i = some score) :
    scoreAt wanted candidates i = some score ∨
      i = candidates.length ∧ score? wanted last = some score := by
  have hi := lt_of_scoreAt_eq_some h
  rw [List.length_append, List.length_singleton] at hi
  by_cases hlt : i < candidates.length
  · rw [scoreAt_concat_of_lt hlt] at h
    exact .inl h
  · obtain rfl : i = candidates.length := by omega
    rw [scoreAt_concat_length] at h
    exact .inr ⟨rfl, h⟩

/-- The candidate at position `i` is the first of those with the greatest score. -/
structure IsBest (wanted : List (List Char)) (candidates : List String) (i : Nat)
    (score : Score) : Prop where
  scored : scoreAt wanted candidates i = some score
  greatest : ∀ j other, scoreAt wanted candidates j = some other → score.lt other = false
  first : ∀ j other, scoreAt wanted candidates j = some other → j < i → other.lt score = true

theorem IsBest.unique {wanted : List (List Char)} {candidates : List String} {i j : Nat}
    {score other : Score} (h : IsBest wanted candidates i score)
    (h' : IsBest wanted candidates j other) : i = j := by
  rcases Nat.lt_trichotomy i j with hlt | heq | hlt
  · have hless := h'.first i score h.scored hlt
    rw [h.greatest j other h'.scored] at hless
    cases hless
  · exact heq
  · have hless := h.first j other h'.scored hlt
    rw [h'.greatest i score h.scored] at hless
    cases hless

/-- A later candidate that is not better leaves the best one in its place. -/
theorem IsBest.concat {wanted : List (List Char)} {candidates : List String} {i : Nat}
    {score : Score} (h : IsBest wanted candidates i score) {last : String}
    (hlast : ∀ other, score? wanted last = some other → score.lt other = false) :
    IsBest wanted (candidates ++ [last]) i score where
  scored := by
    rw [scoreAt_concat_of_lt (lt_of_scoreAt_eq_some h.scored)]
    exact h.scored
  greatest j other hj := by
    rcases scoreAt_concat_eq_some hj with hj | ⟨-, hj⟩
    · exact h.greatest j other hj
    · exact hlast other hj
  first j other hj hlt := by
    have hi := lt_of_scoreAt_eq_some h.scored
    rw [scoreAt_concat_of_lt (hlt.trans hi)] at hj
    exact h.first j other hj hlt

/-- A later candidate that is better than all before it takes the place of the best one. -/
theorem IsBest.of_last {wanted : List (List Char)} {candidates : List String} {last : String}
    {score : Score} (hlast : score? wanted last = some score)
    (hless : ∀ j other, scoreAt wanted candidates j = some other → other.lt score = true) :
    IsBest wanted (candidates ++ [last]) candidates.length score where
  scored := by rw [scoreAt_concat_length, hlast]
  greatest j other hj := by
    rcases scoreAt_concat_eq_some hj with hj | ⟨-, hj⟩
    · have hlt := hless j other hj
      rw [Score.lt_iff] at hlt
      rw [Score.lt_false_iff]
      omega
    · obtain rfl : score = other := Option.some.inj (hlast.symm.trans hj)
      rw [Score.lt_false_iff]
      omega
  first j other hj hlt := by
    rw [scoreAt_concat_of_lt hlt] at hj
    exact hless j other hj

theorem bestFrom_concat (wanted : List (List Char)) (position : Nat)
    (best : Option (Nat × Score)) (candidates : List String) (last : String) :
    bestFrom wanted position best (candidates ++ [last]) =
      match score? wanted last with
      | some score =>
        better (bestFrom wanted position best candidates) (position + candidates.length) score
      | none => bestFrom wanted position best candidates := by
  induction candidates generalizing position best with
  | nil => rfl
  | cons candidate rest ih =>
    simp only [List.cons_append, bestFrom, ih, List.length_cons]
    rw [Nat.add_assoc, Nat.add_comm 1]

/-- What a run through the candidates has found: the first of the best ones so far, or that none of
them shares a word. -/
def Found (wanted : List (List Char)) (candidates : List String) :
    Option (Nat × Score) → Prop
  | none => ∀ i, scoreAt wanted candidates i = none
  | some (i, score) => IsBest wanted candidates i score

/-- One more candidate. -/
theorem Found.concat {wanted : List (List Char)} {candidates : List String}
    {best : Option (Nat × Score)} (h : Found wanted candidates best) (last : String) :
    Found wanted (candidates ++ [last])
      (match score? wanted last with
      | some score => better best candidates.length score
      | none => best) := by
  cases hlast : score? wanted last with
  | none =>
    match best with
    | none =>
      intro i
      by_contra hscored
      obtain ⟨score, hscore⟩ := Option.ne_none_iff_exists'.mp hscored
      rcases scoreAt_concat_eq_some hscore with hscore | ⟨-, hscore⟩
      · rw [h i] at hscore
        cases hscore
      · rw [hlast] at hscore
        cases hscore
    | some (i, top) => exact IsBest.concat h (by simp [hlast])
  | some score =>
    match best with
    | none =>
      refine IsBest.of_last hlast fun j other hj => ?_
      rw [h j] at hj
      cases hj
    | some (i, top) =>
      simp only [better]
      split
      next hlt =>
        -- What beats the best so far beats every candidate so far.
        refine IsBest.of_last hlast fun j other hj => ?_
        have hle := IsBest.greatest h j other hj
        rw [Score.lt_false_iff] at hle
        rw [Score.lt_iff] at hlt ⊢
        omega
      next hnot =>
        refine IsBest.concat h fun other hother => ?_
        rw [hlast] at hother
        cases hother
        exact Bool.eq_false_iff.mpr hnot

theorem bestFrom_found (wanted : List (List Char)) (candidates : List String) :
    Found wanted candidates (bestFrom wanted 0 none candidates) := by
  induction candidates using List.reverseRecOn with
  | nil => exact fun i => rfl
  | append_singleton candidates last ih =>
    rw [bestFrom_concat, Nat.zero_add]
    exact ih.concat last

/-- The best overlap is the first of the candidates with the greatest score. -/
theorem best?_eq_some_iff {name : String} {candidates : List String} {i : Nat} :
    best? name candidates = some i ↔ ∃ score, IsBest (meaningfulWords name) candidates i score := by
  have hfound := bestFrom_found (meaningfulWords name) candidates
  rw [best?]
  cases hbest : bestFrom (meaningfulWords name) 0 none candidates with
  | none =>
    rw [hbest] at hfound
    constructor
    · intro h
      cases h
    · rintro ⟨score, h⟩
      have hscored := h.scored
      rw [hfound i] at hscored
      cases hscored
  | some best =>
    rw [hbest] at hfound
    obtain ⟨j, top⟩ := best
    constructor
    · intro h
      cases h
      exact ⟨top, hfound⟩
    · rintro ⟨score, h⟩
      rw [Option.map_some, IsBest.unique hfound h]

/-- There is no best overlap if no candidate shares a word. -/
theorem best?_eq_none_iff {name : String} {candidates : List String} :
    best? name candidates = none ↔ ∀ i, scoreAt (meaningfulWords name) candidates i = none := by
  have hfound := bestFrom_found (meaningfulWords name) candidates
  rw [best?]
  cases hbest : bestFrom (meaningfulWords name) 0 none candidates with
  | none =>
    rw [hbest] at hfound
    exact ⟨fun _ => hfound, fun _ => rfl⟩
  | some best =>
    rw [hbest] at hfound
    constructor
    · intro h
      cases h
    · intro h
      have hscored := IsBest.scored hfound
      rw [h best.1] at hscored
      cases hscored

end PipelinePlan.Overlap
