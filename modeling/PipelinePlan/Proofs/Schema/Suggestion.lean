import PipelinePlan.Proofs.List
import PipelinePlan.Proofs.Text.EditDistance
import PipelinePlan.Schema.Suggestion

namespace PipelinePlan

namespace Text

theorem occursIn_iff {α : Type} [BEq α] [LawfulBEq α] {part whole : List α} :
    occursIn part whole = true ↔ part <:+: whole := by
  induction whole with
  | nil => simp [occursIn]
  | cons c cs ih =>
    rw [occursIn, Bool.or_eq_true, ih, List.isPrefixOf_iff_prefix, List.infix_cons_iff]

end Text

namespace Schema

/-- How far a candidate is from a name: spelled alike but for case, one a part of the other but for
case, or apart by so many edits and no fewer. -/
inductive Apart (name candidate : String) : Nat → Prop
  | case (h : Text.lower candidate = Text.lower name) : Apart name candidate 0
  | part (hcase : Text.lower candidate ≠ Text.lower name)
      (h : (Text.lower name).toList <:+: (Text.lower candidate).toList ∨
        (Text.lower candidate).toList <:+: (Text.lower name).toList) : Apart name candidate 1
  | edits {n : Nat} (hcase : Text.lower candidate ≠ Text.lower name)
      (hname : ¬(Text.lower name).toList <:+: (Text.lower candidate).toList)
      (hcandidate : ¬(Text.lower candidate).toList <:+: (Text.lower name).toList)
      (h : IsLeast {m | Text.Edits m name.toList candidate.toList} n) : Apart name candidate n

theorem apart_iff {name candidate : String} {n : Nat} :
    Apart name candidate n ↔ distance name candidate = n := by
  have hleast := Text.isLeast_editDistance name.toList candidate.toList
  simp only [distance, beq_iff_eq, String.toList_inj, Bool.or_eq_true, Text.occursIn_iff]
  constructor
  · intro h
    cases h with
    | case h => rw [if_pos h]
    | part hcase h => rw [if_neg hcase, if_pos h]
    | edits hcase hname hcandidate h =>
      rw [if_neg hcase, if_neg (not_or.mpr ⟨hname, hcandidate⟩), hleast.unique h]
  · rintro rfl
    split
    · next h => exact .case h
    · next hcase =>
      split
      · next h => exact .part hcase h
      · next h =>
        obtain ⟨hname, hcandidate⟩ := not_or.mp h
        exact .edits hcase hname hcandidate hleast

instance (name candidate : String) : DecidablePred (Apart name candidate) := fun _ =>
  decidable_of_iff _ apart_iff.symm

def scored (name candidate : String) : Suggestion := ⟨candidate, distance name candidate⟩

@[simp] theorem scored_candidate (name candidate : String) :
    (scored name candidate).candidate = candidate := by
  rw [scored]

@[simp] theorem scored_distance (name candidate : String) :
    (scored name candidate).distance = distance name candidate := by
  rw [scored]

theorem scored_injective (name : String) : Function.Injective (scored name) := by
  intro a b h
  exact (Suggestion.mk.inj h).1

def isNear (name : String) (limit : Nat) (candidate : String) : Bool :=
  candidate != name && distance name candidate ≤ limit

def closer (s t : Suggestion) : Bool := s.distance ≤ t.distance

theorem suggest_eq (name : String) (candidates : List String) (limit : Nat) :
    suggest name candidates limit =
      dropRepeats none (((candidates.filter (isNear name limit)).map (scored name)).mergeSort
        closer) := by
  have hnear : ((candidates.filter (· != name)).map (scored name)).filter (·.distance ≤ limit) =
      (candidates.filter (isNear name limit)).map (scored name) := by
    rw [List.filter_map, List.filter_filter]
    refine congrArg _ (List.filter_congr fun c _ => ?_)
    rw [Function.comp_apply, scored_distance, Bool.and_comm, isNear]
  rw [← hnear]
  rfl

section Sorting

theorem closer_trans (s t u : Suggestion) (h : closer s t = true) (h' : closer t u = true) :
    closer s u = true := by
  simp only [closer, decide_eq_true_eq] at *
  omega

theorem closer_total (s t : Suggestion) : (closer s t || closer t s) = true := by
  simp only [closer, Bool.or_eq_true, decide_eq_true_eq]
  omega

theorem pairwise_mergeSort_closer (l : List Suggestion) :
    (l.mergeSort closer).Pairwise (·.distance ≤ ·.distance) := by
  refine (List.pairwise_mergeSort closer_trans closer_total l).imp ?_
  intro s t h
  simpa [closer] using h

/-- Sorting leaves the suggestions of one distance in their order. -/
theorem filter_mergeSort_closer (l : List Suggestion) (n : Nat) :
    (l.mergeSort closer).filter (·.distance == n) = l.filter (·.distance == n) := by
  have hequal : (l.filter (·.distance == n)).Pairwise (fun s t => closer s t = true) := by
    apply List.pairwise_of_forall_mem_list
    intro s hs t ht
    simp only [List.mem_filter, beq_iff_eq] at hs ht
    simp [closer, hs.2, ht.2]
  have hsublist := List.sublist_mergeSort closer_trans closer_total hequal List.filter_sublist
  have hfilter := hsublist.filter (·.distance == n)
  rw [List.filter_filter] at hfilter
  simp only [Bool.and_self] at hfilter
  exact (hfilter.eq_of_length ((List.mergeSort_perm l closer).filter _).length_eq.symm).symm

end Sorting

section Repeats

theorem dropRepeats_sublist (last : Option String) (l : List Suggestion) :
    (dropRepeats last l).Sublist l := by
  induction l generalizing last with
  | nil => exact List.Sublist.refl []
  | cons s rest ih =>
    rw [dropRepeats]
    split
    · exact (ih last).cons s
    · exact (ih _).cons_cons s

variable {last : Option String} {l : List Suggestion} {s t : Suggestion}

/-- Where a candidate has one distance only, its first suggestion is not dropped. -/
theorem mem_dropRepeats (hlast : last ≠ some s.candidate)
    (honly : ∀ u ∈ l, u.candidate = s.candidate → u = s) (hs : s ∈ l) :
    s ∈ dropRepeats last l := by
  induction l generalizing last with
  | nil => exact hs
  | cons u rest ih =>
    have hrest := fun v hv => honly v (List.mem_cons_of_mem u hv)
    have hu := honly u List.mem_cons_self
    rw [dropRepeats]
    split
    · next hsame =>
      rcases List.mem_cons.mp hs with rfl | hs
      · exact absurd (eq_of_beq hsame) hlast
      · exact ih hlast hrest hs
    · by_cases heq : u = s
      · exact heq ▸ List.mem_cons_self
      · have hne : some u.candidate ≠ some s.candidate := fun h => heq (hu (Option.some.inj h))
        exact List.mem_cons_of_mem u (ih hne hrest (List.mem_of_ne_of_mem (Ne.symm heq) hs))

/-- Dropping repeats leaves the order of the first places. -/
theorem idxOf_dropRepeats_lt_iff (hs : last ≠ some s.candidate) (ht : last ≠ some t.candidate)
    (hsonly : ∀ u ∈ l, u.candidate = s.candidate → u = s)
    (htonly : ∀ u ∈ l, u.candidate = t.candidate → u = t) :
    (dropRepeats last l).idxOf s < (dropRepeats last l).idxOf t ↔ l.idxOf s < l.idxOf t := by
  induction l generalizing last with
  | nil => rfl
  | cons u rest ih =>
    have hsrest := fun v hv => hsonly v (List.mem_cons_of_mem u hv)
    have htrest := fun v hv => htonly v (List.mem_cons_of_mem u hv)
    rw [dropRepeats]
    split
    · next hsame =>
      obtain rfl := eq_of_beq hsame
      have hus : (u == s) = false := by
        rw [beq_eq_false_iff_ne]
        rintro rfl
        exact hs rfl
      have hut : (u == t) = false := by
        rw [beq_eq_false_iff_ne]
        rintro rfl
        exact ht rfl
      rw [ih hs ht hsrest htrest]
      simp [List.idxOf_cons, hus, hut]
    · -- Only below a suggestion that is neither of the two is there anything to compare.
      simp only [List.idxOf_cons]
      cases hus : u == s <;> cases hut : u == t
      · have hne : some u.candidate ≠ some s.candidate := fun h =>
          ne_of_beq_false hus (hsonly u List.mem_cons_self (Option.some.inj h))
        have hne' : some u.candidate ≠ some t.candidate := fun h =>
          ne_of_beq_false hut (htonly u List.mem_cons_self (Option.some.inj h))
        simpa using ih hne hne' hsrest htrest
      · simp
      · simp
      · simp

end Repeats

section Suggest

variable {name : String} {candidates : List String} {limit : Nat} {s t : Suggestion}

theorem mem_near_iff :
    s ∈ (candidates.filter (isNear name limit)).map (scored name) ↔
      s = scored name s.candidate ∧ s.candidate ∈ candidates ∧ s.candidate ≠ name ∧
        s.distance ≤ limit := by
  simp only [List.mem_map, List.mem_filter, isNear, Bool.and_eq_true, bne_iff_ne,
    decide_eq_true_eq]
  constructor
  · rintro ⟨c, ⟨hc, hne, hlimit⟩, rfl⟩
    simp only [scored_candidate, scored_distance]
    exact ⟨trivial, hc, hne, hlimit⟩
  · rintro ⟨hs, hc, hne, hlimit⟩
    rw [hs, scored_distance] at hlimit
    exact ⟨s.candidate, ⟨hc, hne, hlimit⟩, hs.symm⟩

theorem mem_suggest_iff :
    s ∈ suggest name candidates limit ↔
      s = scored name s.candidate ∧ s.candidate ∈ candidates ∧ s.candidate ≠ name ∧
        s.distance ≤ limit := by
  rw [suggest_eq, ← mem_near_iff]
  constructor
  · intro h
    exact List.mem_mergeSort.mp ((dropRepeats_sublist none _).subset h)
  · intro h
    refine mem_dropRepeats (by simp) ?_ (List.mem_mergeSort.mpr h)
    intro u hu heq
    rw [(mem_near_iff.mp (List.mem_mergeSort.mp hu)).1, heq, ← (mem_near_iff.mp h).1]

theorem idxOf_suggest_lt_iff (hs : s ∈ suggest name candidates limit)
    (ht : t ∈ suggest name candidates limit) (h : s.distance = t.distance) :
    (suggest name candidates limit).idxOf s < (suggest name candidates limit).idxOf t ↔
      candidates.idxOf s.candidate < candidates.idxOf t.candidate := by
  obtain ⟨hscored, -, hne, hlimit⟩ := mem_suggest_iff.mp hs
  obtain ⟨hscored', -, hne', hlimit'⟩ := mem_suggest_iff.mp ht
  let kept := candidates.filter (isNear name limit)
  let near := kept.map (scored name)
  let sorted := near.mergeSort closer
  have honly {s : Suggestion} (hscored : s = scored name s.candidate) :
      ∀ u ∈ sorted, u.candidate = s.candidate → u = s := by
    intro u hu heq
    rw [(mem_near_iff.mp (List.mem_mergeSort.mp hu)).1, heq, ← hscored]
  have hkept {s : Suggestion} (hscored : s = scored name s.candidate) (hne : s.candidate ≠ name)
      (hlimit : s.distance ≤ limit) : isNear name limit s.candidate = true := by
    rw [hscored, scored_distance] at hlimit
    simpa [isNear, hne] using hlimit
  have hplace {s : Suggestion} (hscored : s = scored name s.candidate) :
      near.idxOf s = kept.idxOf s.candidate := by
    rw [← idxOf_map_of_injective (scored_injective name) kept, ← hscored]
  rw [suggest_eq]
  calc (dropRepeats none sorted).idxOf s < (dropRepeats none sorted).idxOf t
      ↔ sorted.idxOf s < sorted.idxOf t :=
        idxOf_dropRepeats_lt_iff (by simp) (by simp) (honly hscored) (honly hscored')
    _ ↔ (sorted.filter (·.distance == t.distance)).idxOf s <
          (sorted.filter (·.distance == t.distance)).idxOf t :=
        (idxOf_filter_lt_iff (by simp [h]) (by simp) sorted).symm
    _ ↔ (near.filter (·.distance == t.distance)).idxOf s <
          (near.filter (·.distance == t.distance)).idxOf t := by
        rw [filter_mergeSort_closer]
    _ ↔ near.idxOf s < near.idxOf t := idxOf_filter_lt_iff (by simp [h]) (by simp) near
    _ ↔ kept.idxOf s.candidate < kept.idxOf t.candidate := by
        rw [hplace hscored, hplace hscored']
    _ ↔ candidates.idxOf s.candidate < candidates.idxOf t.candidate :=
        idxOf_filter_lt_iff (hkept hscored hne hlimit) (hkept hscored' hne' hlimit') candidates

end Suggest

/-- Every candidate other than the name within the limit is suggested and nothing else, each with
its distance, the closest first. Of two that are equally far the one comes first that is the first
among the candidates. -/
theorem suggest_ranks (name : String) (candidates : List String) (limit : Nat) :
    (∀ s ∈ suggest name candidates limit, s.candidate ∈ candidates ∧ s.candidate ≠ name ∧
      Apart name s.candidate s.distance ∧ s.distance ≤ limit) ∧
    (∀ candidate ∈ candidates, candidate ≠ name → ∀ n ≤ limit, Apart name candidate n →
      ⟨candidate, n⟩ ∈ suggest name candidates limit) ∧
    (suggest name candidates limit).Pairwise (·.distance ≤ ·.distance) ∧
    ∀ s ∈ suggest name candidates limit, ∀ t ∈ suggest name candidates limit,
      s.distance = t.distance →
        ((suggest name candidates limit).idxOf s < (suggest name candidates limit).idxOf t ↔
          candidates.idxOf s.candidate < candidates.idxOf t.candidate) := by
  refine ⟨?_, ?_, ?_, fun s hs t ht => idxOf_suggest_lt_iff hs ht⟩
  · intro s hs
    obtain ⟨hscored, hmem, hne, hlimit⟩ := mem_suggest_iff.mp hs
    have hdistance := congrArg Suggestion.distance hscored
    rw [scored_distance] at hdistance
    exact ⟨hmem, hne, apart_iff.mpr hdistance.symm, hlimit⟩
  · intro candidate hmem hne n hlimit hapart
    refine mem_suggest_iff.mpr ⟨?_, hmem, hne, hlimit⟩
    rw [scored, apart_iff.mp hapart]
  · rw [suggest_eq]
    exact (pairwise_mergeSort_closer _).sublist (dropRepeats_sublist none _)

/-- One candidate differs in case only, two are one edit away, one of them listed twice, and one is
beyond the limit. -/
theorem pay_suggests :
    ⟨"ply", 1⟩ ∈ suggest "pay" ["ply", "box", "PAY", "pat", "ply"] 2 ∧
    ⟨"PAY", 0⟩ ∈ suggest "pay" ["ply", "box", "PAY", "pat", "ply"] 2 ∧
    ⟨"pat", 1⟩ ∈ suggest "pay" ["ply", "box", "PAY", "pat", "ply"] 2 ∧
    (suggest "pay" ["ply", "box", "PAY", "pat", "ply"] 2).idxOf ⟨"ply", 1⟩ <
      (suggest "pay" ["ply", "box", "PAY", "pat", "ply"] 2).idxOf ⟨"pat", 1⟩ ∧
    ∀ n, ⟨"box", n⟩ ∉ suggest "pay" ["ply", "box", "PAY", "pat", "ply"] 2 := by
  have hapart : Apart "pay" "ply" 1 ∧ Apart "pay" "PAY" 0 ∧ Apart "pay" "pat" 1 ∧
      Apart "pay" "box" 3 := by
    decide +kernel
  obtain ⟨hply, hPAY, hpat, hbox⟩ := hapart
  obtain ⟨hsound, hcomplete, -, hties⟩ :=
    suggest_ranks "pay" ["ply", "box", "PAY", "pat", "ply"] 2
  have hply' := hcomplete "ply" (by simp) (by decide) 1 (by decide) hply
  have hpat' := hcomplete "pat" (by simp) (by decide) 1 (by decide) hpat
  refine ⟨hply', hcomplete "PAY" (by simp) (by decide) 0 (by decide) hPAY, hpat', ?_, ?_⟩
  · exact (hties _ hply' _ hpat' rfl).mpr (by decide)
  · intro n hn
    obtain ⟨-, -, hapart, hlimit⟩ := hsound _ hn
    have hthree : n = 3 := (apart_iff.mp hapart).symm.trans (apart_iff.mp hbox)
    have htwo : n ≤ 2 := hlimit
    omega

end Schema

end PipelinePlan
