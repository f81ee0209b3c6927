import PipelinePlan.Proofs.Order.Identifiers

namespace PipelinePlan

def Table.only {α : Type} (t : Table α) (key : String) : Table α where
  entries := t.entries.filter (·.1 == key)
  ordered := t.ordered.filter _

namespace Order

/-- Dropping repeated keys goes on under a selection that holds all side effects of a key or none. -/
theorem filter_firstEffects {p : SyntheticStep → Bool} {effects : List SyntheticStep}
    (h : ∀ s ∈ effects, ∀ t ∈ effects, s.key = t.key → p s = p t) :
    (firstEffects effects).filter p = firstEffects (effects.filter p) := by
  induction effects using List.reverseRecOn with
  | nil => rfl
  | append_singleton effects s ih =>
    have hs : s ∈ effects ++ [s] := List.mem_append_right _ List.mem_cons_self
    have hrest := ih fun t ht u hu =>
      h t (List.mem_append_left _ ht) u (List.mem_append_left _ hu)
    rw [firstEffects_concat, List.filter_append]
    cases hp : p s with
    | false =>
      rw [List.filter_singleton, hp, Bool.cond_false, List.append_nil, ← hrest]
      split
      · rfl
      · rw [List.filter_append, List.filter_singleton, hp, Bool.cond_false, List.append_nil]
    | true =>
      -- A side effect with the key of a selected one is selected too.
      have hany : ((firstEffects effects).filter p).any (fun t => s.key == t.key) =
          (firstEffects effects).any fun t => s.key == t.key := by
        rw [Bool.eq_iff_iff, List.any_eq_true, List.any_eq_true]
        refine exists_congr fun t => and_congr_left fun hkey => ?_
        rw [List.mem_filter, and_iff_left_iff_imp]
        intro ht
        have hmem : t ∈ effects := (eraseDupsBy_sublist _).mem ht
        rw [← h s hs t (List.mem_append_left _ hmem) (eq_of_beq hkey), hp]
      rw [List.filter_singleton, hp, Bool.cond_true, firstEffects_concat, ← hrest, hany]
      split
      · rfl
      · rw [List.filter_append, List.filter_singleton, hp, Bool.cond_true]

namespace Expander

def only (x : Expander) (aspect : String) : Expander := { x with aspects := x.aspects.only aspect }

variable {x : Expander} {base : List String}

theorem eligible_only (x : Expander) (aspect : String) :
    (x.only aspect).eligible = x.eligible.filter (·.1 == aspect) :=
  List.filter_comm _ _ _

theorem candidate?_only (x : Expander) (aspect step : String) (entry : String × Aspect) :
    (x.only aspect).candidate? step entry = x.candidate? step entry := rfl

theorem aspect_of_candidate? {step : String} {entry : String × Aspect} {s : SyntheticStep}
    (h : x.candidate? step entry = some s) : s.aspect = entry.1 := by
  unfold candidate? at h
  split at h
  · obtain ⟨type, -, rfl⟩ := Option.map_eq_some_iff.mp h
    rfl
  · cases h

theorem candidates_only (x : Expander) (aspect : String) (position : Position) (step : String) :
    (x.only aspect).candidates position step =
      (x.candidates position step).filter (·.aspect == aspect) := by
  rw [candidates, candidates, eligible_only, List.filter_comm, List.filterMap_filter,
    List.filter_filterMap]
  apply List.filterMap_congr
  intro entry _
  rw [candidate?_only]
  cases hc : x.candidate? step entry with
  | none => simp
  | some s =>
    rw [Option.filter_some, aspect_of_candidate? hc]

theorem allCandidates_only (x : Expander) (aspect : String) (base : List String) :
    (x.only aspect).allCandidates base =
      (x.allCandidates base).filter (·.aspect == aspect) := by
  simp only [allCandidates, List.filter_flatMap, List.filter_append, candidates_only]

theorem exists_eligible_of_mem_allCandidates {s : SyntheticStep} (h : s ∈ x.allCandidates base) :
    ∃ step ∈ base, ∃ entry ∈ x.eligible, x.candidate? step entry = some s := by
  obtain ⟨step, hstep, hs⟩ := List.mem_flatMap.mp h
  refine ⟨step, hstep, ?_⟩
  rw [List.mem_append, candidates, candidates, List.mem_filterMap, List.mem_filterMap] at hs
  rcases hs with ⟨entry, hentry, hs⟩ | ⟨entry, hentry, hs⟩
  · exact ⟨entry, List.mem_of_mem_filter hentry, hs⟩
  · exact ⟨entry, List.mem_of_mem_filter hentry, hs⟩

theorem aspect_mem_keys_of_mem_allCandidates {s : SyntheticStep} (h : s ∈ x.allCandidates base) :
    s.aspect ∈ x.aspects.keys := by
  obtain ⟨step, -, entry, hentry, hs⟩ := exists_eligible_of_mem_allCandidates h
  rw [aspect_of_candidate? hs]
  exact List.mem_map_of_mem (mem_eligible.mp hentry).1

/-- An order without marked identifiers gets the first candidate on each key, if there are any. -/
theorem synthetic_of_unmarked
    (h : ∀ identifier ∈ base, Naming.isSideEffect identifier = false) :
    (x.run base).value.synthetic = firstEffects (x.allCandidates base) := by
  by_cases happ : x.Applies base
  · exact synthetic_of_applies happ
  · have hnone : x.allCandidates base = [] := by
      by_contra hsome
      obtain ⟨s, hs⟩ := List.exists_mem_of_ne_nil _ hsome
      obtain ⟨step, hstep, entry, hentry, -⟩ := exists_eligible_of_mem_allCandidates hs
      exact happ ⟨List.ne_nil_of_mem hstep, h, entry, mem_eligible.mp hentry⟩
    rw [run_of_not_applies happ, hnone]
    rfl

/-- The side effects of an aspect are those that it has as the only aspect, if no other aspect has
its token. -/
theorem synthetic_only (x : Expander) (base : List String) (aspect : String)
    (hother : ∀ other ∈ x.aspects.keys, other ≠ aspect → Text.token other ≠ Text.token aspect) :
    (x.run base).value.synthetic.filter (·.aspect == aspect) =
      ((x.only aspect).run base).value.synthetic := by
  -- A candidate with the key of one of the aspect's has the aspect's token, so it is one of them.
  have haspect : ∀ s ∈ x.allCandidates base, ∀ t ∈ x.allCandidates base, s.key = t.key →
      s.aspect = aspect → t.aspect = aspect := by
    intro s _ t ht hkey hs
    by_contra hne
    apply hother t.aspect (aspect_mem_keys_of_mem_allCandidates ht) hne
    rw [← hs]
    exact (congrArg Prod.fst hkey).symm
  by_cases hmark : ∀ identifier ∈ base, Naming.isSideEffect identifier = false
  · rw [synthetic_of_unmarked hmark, synthetic_of_unmarked hmark, allCandidates_only]
    apply filter_firstEffects
    intro s hs t ht hkey
    rw [Bool.eq_iff_iff, beq_iff_eq, beq_iff_eq]
    exact ⟨haspect s hs t ht hkey, haspect t ht s hs hkey.symm⟩
  · rw [run_of_not_applies fun happ => hmark happ.2.1,
      run_of_not_applies fun happ => hmark happ.2.1]
    rfl

/-- Two aspects that concern all steps, one on each side of them, and two steps on one type. -/
def watching : Expander where
  aspects := .ofList [("audit", {}), ("trace", .beforeStep)]
  contracts := .ofList [
    ("acme.PayGrpcClientStep", { inputType := some "Bill", outputType := some "Bill" }),
    ("acme.BoxGrpcClientStep", { inputType := some "Bill", outputType := some "Box" })]
  topology := []
  baseSpace := "acme"
  transport := .grpc

def payThenBox : List String := ["acme.PayGrpcClientStep", "acme.BoxGrpcClientStep"]

theorem watching_only :
    (∀ other ∈ watching.aspects.keys, other ≠ "audit" → Text.token other ≠ Text.token "audit") ∧
    (watching.run payThenBox).value.synthetic.map (fun s => (s.aspect, s.type, s.parent)) =
      [("trace", "Bill", "acme.PayGrpcClientStep"), ("audit", "Bill", "acme.PayGrpcClientStep"),
        ("audit", "Box", "acme.BoxGrpcClientStep")] ∧
    (watching.run payThenBox).value.synthetic.filter (·.aspect == "audit") =
      ((watching.only "audit").run payThenBox).value.synthetic := by
  have hfacts : (∀ other ∈ watching.aspects.keys, other ≠ "audit" →
        Text.token other ≠ Text.token "audit") ∧
      (watching.run payThenBox).value.synthetic.map (fun s => (s.aspect, s.type, s.parent)) =
        [("trace", "Bill", "acme.PayGrpcClientStep"), ("audit", "Bill", "acme.PayGrpcClientStep"),
          ("audit", "Box", "acme.BoxGrpcClientStep")] := by
    decide +kernel
  exact ⟨hfacts.1, hfacts.2, synthetic_only watching payThenBox "audit" hfacts.1⟩

end Expander

end Order

end PipelinePlan
