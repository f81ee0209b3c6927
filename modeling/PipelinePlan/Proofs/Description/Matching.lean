import PipelinePlan.Description.Basic
import PipelinePlan.Proofs.Overlap

namespace PipelinePlan

theorem TopologyEntry.stepAmong?_lt {entry : TopologyEntry} {steps : List Step} {taken : List Nat}
    {position : Nat} (h : entry.stepAmong? steps taken = some position) :
    position < steps.length := by
  unfold stepAmong? at h
  dsimp only at h
  split at h
  · next named hnamed =>
    cases h
    exact (List.findIdx?_eq_some_iff_findIdx_eq.mp hnamed).1
  · split at h
    · next free hfree =>
      cases h
      obtain ⟨i, -, hi⟩ := Option.bind_eq_some_iff.mp hfree
      have hmem := List.mem_of_mem_filter (List.mem_of_getElem? hi)
      exact List.mem_range.mp hmem
    · obtain ⟨score, hbest⟩ := Overlap.best?_eq_some_iff.mp h
      have hlt := Overlap.lt_of_scoreAt_eq_some hbest.scored
      rwa [List.length_map] at hlt

namespace Topology

variable {topology : Topology} {steps : List Step}

theorem length_matchFrom (steps : List Step) (taken : List Nat) (topology : Topology) :
    (matchFrom steps taken topology).length = topology.length := by
  induction topology generalizing taken with
  | nil => rfl
  | cons entry rest ih =>
    rw [matchFrom]
    split <;> rw [List.length_cons, List.length_cons, ih]

theorem length_matched (topology : Topology) (steps : List Step) :
    (topology.matched steps).length = topology.length := by
  rw [matched, List.length_zip, List.length_map, matches?, length_matchFrom, Nat.min_self]

/-- Each entry is matched where the steps of the entries before it are taken. -/
theorem getElem?_matchFrom (steps : List Step) (taken : List Nat) (topology : Topology)
    (p : Nat) :
    (matchFrom steps taken topology)[p]? = topology[p]?.map fun entry =>
      entry.stepAmong? steps
        (taken ++ ((matchFrom steps taken topology).take p).reduceOption) := by
  induction topology generalizing taken p with
  | nil => rfl
  | cons first rest ih =>
    rw [matchFrom]
    cases hfirst : first.stepAmong? steps taken with
    | none =>
      cases p with
      | zero => simp [hfirst]
      | succ p => simpa using ih taken p
    | some position =>
      cases p with
      | zero => simp [hfirst]
      | succ p => simpa using ih (taken ++ [position]) p

theorem lt_of_mem_matchFrom {taken : List Nat} {position : Nat}
    (h : some position ∈ matchFrom steps taken topology) : position < steps.length := by
  obtain ⟨p, hp⟩ := List.mem_iff_getElem?.mp h
  rw [getElem?_matchFrom] at hp
  obtain ⟨entry, -, hstep⟩ := Option.map_eq_some_iff.mp hp
  exact TopologyEntry.stepAmong?_lt hstep

theorem exists_step_of_mem_matches? {position : Nat} (h : some position ∈ topology.matches? steps) :
    ∃ step, steps[position]? = some step :=
  ⟨_, List.getElem?_eq_getElem (lt_of_mem_matchFrom h)⟩

theorem matched_eq_map (topology : Topology) (steps : List Step) :
    topology.matched steps =
      (topology.zip (topology.matches? steps)).map (Prod.map id (·.bind (steps[·]?))) :=
  List.zip_map_right

/-- The steps that are referred to, in the order of the entries. -/
theorem map_snd_matched (topology : Topology) (steps : List Step) :
    (topology.matched steps).map Prod.snd =
      (topology.matches? steps).map (·.bind (steps[·]?)) := by
  apply List.map_snd_zip
  rw [List.length_map, matches?, length_matchFrom]

/-- The entries without a step are those that the matching leaves alone. -/
theorem filter_isNone_matched (topology : Topology) (steps : List Step) :
    ((topology.matched steps).filter (·.2.isNone)).map Prod.fst =
      ((topology.zip (topology.matches? steps)).filter (·.2.isNone)).map Prod.fst := by
  have hisNone : ∀ pair ∈ topology.zip (topology.matches? steps),
      (pair.2.bind (steps[·]?)).isNone = pair.2.isNone := by
    rintro ⟨entry, position⟩ hpair
    cases position with
    | none => rfl
    | some position =>
      obtain ⟨step, hstep⟩ := exists_step_of_mem_matches? (List.of_mem_zip hpair).2
      simp [hstep]
  rw [matched_eq_map, List.filter_map, List.map_map]
  exact congrArg (List.map Prod.fst) (List.filter_congr hisNone)

end Topology

end PipelinePlan
