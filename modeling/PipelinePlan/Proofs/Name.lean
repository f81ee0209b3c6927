import Mathlib
import PipelinePlan.Name

namespace PipelinePlan

namespace Text

variable {α : Type} {p : α → Bool}

theorem afterLast_append_cons (before : List α) {c : α} (hc : p c = true) (after : List α) :
    afterLast p (before ++ c :: after) = afterLast p after := by
  induction after using List.reverseRecOn with
  | nil => simp [afterLast, hc]
  | append_singleton after a ih =>
    change List.rtakeWhile (fun c => !p c) _ = List.rtakeWhile (fun c => !p c) _ at ih ⊢
    rw [← List.cons_append, ← List.append_assoc, List.rtakeWhile_concat, ih,
      List.rtakeWhile_concat]

theorem afterLast_of_none {cs : List α} (h : ∀ c ∈ cs, p c = false) : afterLast p cs = cs :=
  List.rtakeWhile_eq_self_iff.mpr fun c hc => by simp [h c hc]

theorem afterLast_append_of_none (before : List α) {after : List α}
    (h : ∀ c ∈ after, p c = false) :
    afterLast p (before ++ after) = afterLast p before ++ after := by
  have hr : ∀ c ∈ after.reverse, (!p c) = true := fun c hc => by simp [h c (by simpa using hc)]
  unfold afterLast
  rw [List.reverse_append, List.takeWhile_append_of_pos hr, List.reverse_append,
    List.reverse_reverse]

/-- An end without separators is the end of what follows the last separator. -/
theorem suffix_afterLast_iff {part cs : List α} (h : ∀ c ∈ part, p c = false) :
    part <:+ afterLast p cs ↔ part <:+ cs := by
  constructor
  · intro hpart
    exact hpart.trans (List.rtakeWhile_suffix _ _)
  · rintro ⟨before, rfl⟩
    rw [afterLast_append_of_none before h]
    exact List.suffix_append _ _

theorem afterLast_dropWhile (cs : List α) : afterLast p (cs.dropWhile p) = afterLast p cs := by
  induction cs with
  | nil => rfl
  | cons c cs ih =>
    cases hc : p c with
    | true => rw [List.dropWhile_cons_of_pos hc, ih, ← afterLast_append_cons [] hc cs]; rfl
    | false => rw [List.dropWhile_cons_of_neg (by simp [hc])]

theorem splitFirst?_append_cons {before : List α} (h : ∀ a ∈ before, p a = false) {c : α}
    (hc : p c = true) (after : List α) :
    splitFirst? p (before ++ c :: after) = some (before, after) := by
  have hb : ∀ a ∈ before, (!p a) = true := fun a ha => by simp [h a ha]
  have hs : (before ++ c :: after).span (fun c => !p c) = (before, c :: after) := by
    rw [List.span_eq_takeWhile_dropWhile, List.takeWhile_append_of_pos hb,
      List.dropWhile_append_of_pos hb]
    simp [hc]
  simp only [splitFirst?, hs]

theorem splitFirst?_eq_some {cs before after : List α}
    (h : splitFirst? p cs = some (before, after)) :
    ∃ c, p c = true ∧ (∀ a ∈ before, p a = false) ∧ cs = before ++ c :: after := by
  have hcs : cs = _ ++ _ := (List.takeWhile_append_dropWhile (p := fun c => !p c)).symm
  simp only [splitFirst?, List.span_eq_takeWhile_dropWhile] at h
  cases hd : cs.dropWhile (fun c => !p c) with
  | nil => simp [hd] at h
  | cons c rest =>
    have hc := List.head?_dropWhile_not (fun c => !p c) cs
    simp only [hd, List.head?_cons, Option.some.injEq, Prod.mk.injEq] at h hc
    rw [hd, h.1, h.2] at hcs
    refine ⟨c, by simpa using hc, ?_, hcs⟩
    intro a ha
    rw [← h.1] at ha
    simpa using List.mem_takeWhile_imp ha

theorem splitFirst?_eq_none_iff {cs : List α} :
    splitFirst? p cs = none ↔ ∀ c ∈ cs, p c = false := by
  have hdrop : splitFirst? p cs = none ↔ cs.dropWhile (fun c => !p c) = [] := by
    simp only [splitFirst?, List.span_eq_takeWhile_dropWhile]
    cases cs.dropWhile (fun c => !p c) <;> simp
  rw [hdrop, List.dropWhile_eq_nil_iff]
  simp only [Bool.not_eq_true']

theorem splitLast?_append_cons (before : List α) {c : α} (hc : p c = true) {after : List α}
    (h : ∀ a ∈ after, p a = false) :
    splitLast? p (before ++ c :: after) = some (before, after) := by
  have hr : (before ++ c :: after).reverse = after.reverse ++ c :: before.reverse := by simp
  rw [splitLast?, hr, splitFirst?_append_cons (by simpa using h) hc]
  simp

theorem splitLast?_eq_some {cs before after : List α}
    (h : splitLast? p cs = some (before, after)) :
    ∃ c, p c = true ∧ (∀ a ∈ after, p a = false) ∧ cs = before ++ c :: after := by
  obtain ⟨⟨front, back⟩, hf, hfb⟩ := Option.map_eq_some_iff.mp h
  obtain ⟨c, hc, hnone, hcs⟩ := splitFirst?_eq_some hf
  obtain ⟨rfl, rfl⟩ := Prod.mk.inj hfb
  refine ⟨c, hc, by simpa using hnone, ?_⟩
  have := congrArg List.reverse hcs
  simpa using this

theorem splitLast?_eq_none_iff {cs : List α} :
    splitLast? p cs = none ↔ ∀ c ∈ cs, p c = false := by
  rw [splitLast?, Option.map_eq_none_iff, splitFirst?_eq_none_iff]
  simp only [List.mem_reverse]

end Text

namespace Name

theorem toList_qualify (space name : String) :
    (qualify space name).toList =
      (if space = "" then [] else space.toList ++ ['.']) ++ name.toList := by
  unfold qualify
  split <;> simp_all

def Undotted (name : String) : Prop := ∀ c ∈ name.toList, isDot c = false

theorem simple_eq (s : String) : simple s = String.ofList (Text.afterLast isDot s.toList) := by
  rw [simple, Text.afterLast_dropWhile]

theorem simple_qualify (space : String) {name : String} (h : Undotted name) :
    simple (qualify space name) = name := by
  rw [simple_eq, qualify]
  split
  · rw [Text.afterLast_of_none h, String.ofList_toList]
  · have hl : (space ++ "." ++ name).toList = space.toList ++ '.' :: name.toList := by simp
    rw [hl, Text.afterLast_append_cons _ rfl, Text.afterLast_of_none h, String.ofList_toList]

theorem qualify_injective {space space' name name' : String} (hn : Undotted name)
    (hn' : Undotted name') (h : qualify space name = qualify space' name') :
    space = space' ∧ name = name' := by
  have hname : name = name' := by rw [← simple_qualify space hn, h, simple_qualify space' hn']
  subst hname
  refine ⟨?_, rfl⟩
  have hl := congrArg String.toList h
  rw [toList_qualify, toList_qualify, List.append_left_inj] at hl
  split_ifs at hl with hs hs'
  · rw [hs, hs']
  · simp at hl
  · simp at hl
  · exact String.toList_inj.mp (List.append_left_injective _ hl)

end Name

end PipelinePlan
