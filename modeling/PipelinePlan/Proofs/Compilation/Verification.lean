import PipelinePlan.Proofs.Compilation.Isolation
import PipelinePlan.Proofs.Except
import PipelinePlan.Proofs.Order.Verification
import PipelinePlan.Proofs.Schema.BuiltPool

namespace PipelinePlan

theorem Binding.code_of_mem_resolve {step : Step} {pool : Schema.Pool} {outcome : Outcome Binding}
    (h : Binding.resolve step pool = .ok outcome) {d : Diagnostic} (hd : d ∈ outcome.diagnostics) :
    d.code = Diagnostic.extraMethod := by
  rw [Binding.resolve_eq] at h
  split at h
  · cases h
  obtain ⟨found, -, h⟩ := bind_eq_ok_iff.mp h
  obtain ⟨method, -, h⟩ := bind_eq_ok_iff.mp h
  split at h
  · cases h
  split at h
  · cases h
  split at h
  · cases h
  cases h
  simp only [Binding.extraMethods] at hd
  split at hd
  · cases hd
  · rw [List.mem_singleton.mp hd]
    rfl

theorem GeneratedTypes.code_of_mem_resolve {binding : Binding} {pool : Schema.Pool}
    {d : Diagnostic} (hd : d ∈ (GeneratedTypes.resolve binding pool).diagnostics) :
    d.code = Diagnostic.wireStubUnavailable := by
  simp only [GeneratedTypes.resolve] at hd
  split at hd
  · cases hd
  · rw [List.mem_singleton.mp hd]
    rfl

namespace Order

def topologyCodes : List String :=
  [Diagnostic.topologyStepUnmatched, Diagnostic.topologyStepDuplicate,
    Diagnostic.stepNotInTopology]

theorem code_mem_place {transport : Transport} {progress : Progress}
    (h : ∀ d ∈ progress.diagnostics, d.code ∈ topologyCodes)
    (pair : TopologyEntry × Option Step) :
    ∀ d ∈ (progress.place transport pair).diagnostics, d.code ∈ topologyCodes := by
  obtain ⟨entry, step⟩ := pair
  cases step with
  | none =>
    simp only [Progress.place, List.forall_mem_append, List.forall_mem_singleton]
    exact ⟨h, by simp [Diagnostic.warning, topologyCodes]⟩
  | some step =>
    simp only [Progress.place]
    split
    · simp only [List.forall_mem_append, List.forall_mem_singleton]
      exact ⟨h, by simp [Diagnostic.warning, topologyCodes]⟩
    · exact h

theorem code_mem_foldl_place {transport : Transport} {progress : Progress}
    (h : ∀ d ∈ progress.diagnostics, d.code ∈ topologyCodes)
    (pairs : List (TopologyEntry × Option Step)) :
    ∀ d ∈ (pairs.foldl (Progress.place transport) progress).diagnostics,
      d.code ∈ topologyCodes := by
  induction pairs generalizing progress with
  | nil => exact h
  | cons pair pairs ih => exact ih (code_mem_place h pair)

theorem code_mem_base (topology : Topology) (steps : List Step) (transport : Transport) :
    ∀ d ∈ (base topology steps transport).diagnostics, d.code ∈ topologyCodes := by
  intro d hd
  unfold base at hd
  split at hd
  · cases hd
  · rcases List.mem_append.mp hd with hd | hd
    · exact code_mem_foldl_place (fun _ h => absurd h List.not_mem_nil) _ d hd
    · obtain ⟨step, -, rfl⟩ := List.mem_map.mp hd
      simp [Diagnostic.warning, topologyCodes]

end Order

namespace Compilation

def bindingCodes : List String := [Diagnostic.extraMethod, Diagnostic.wireStubUnavailable]

theorem code_mem_bindStep {pool : Except Schema.Error Schema.Pool} {step : Step}
    {outcome : Outcome CompiledStep} (h : bindStep pool step = .ok outcome) {d : Diagnostic}
    (hd : d ∈ outcome.diagnostics) : d.code ∈ bindingCodes := by
  unfold bindStep at h
  split at h
  · cases h
    cases hd
  · cases pool with
    | error e => cases h
    | ok pool =>
      obtain ⟨binding, hbinding, houtcome⟩ := bind_eq_ok_iff.mp h
      cases houtcome
      rcases List.mem_append.mp hd with hd | hd
      · rw [Binding.code_of_mem_resolve hbinding hd]
        exact List.mem_cons_self
      · rw [GeneratedTypes.code_of_mem_resolve hd]
        exact List.mem_cons_of_mem _ List.mem_cons_self

theorem code_mem_bindAll (pool : Except Schema.Error Schema.Pool) (steps : List Step) :
    ∀ d ∈ (bindAll pool steps).diagnostics, d.code ∈ bindingCodes := by
  induction steps with
  | nil => exact fun d hd => absurd hd List.not_mem_nil
  | cons step rest ih =>
    intro d hd
    unfold bindAll at hd
    cases hbind : bindStep pool step with
    | error e =>
      simp only [hbind] at hd
      exact ih d hd
    | ok outcome =>
      simp only [hbind] at hd
      rcases List.mem_append.mp hd with hd | hd
      · exact code_mem_bindStep hbind hd
      · exact ih d hd

theorem expander_eq_asking (d : Description) (steps : List Step)
    (knows : Option (String → Bool)) :
    expander d steps knows = (expander d steps none).asking knows := rfl

theorem expanded_value (source : Source) (knows : Option (String → Bool)) (steps : List Step) :
    (expanded source knows steps).value = (expanded source none steps).value := by
  rw [expanded, expander_eq_asking, Order.Expander.run_asking_value]
  rfl

theorem expanded_none_diagnostics (source : Source) (steps : List Step) :
    (expanded source none steps).diagnostics = [] := by
  rw [expanded, expander_eq_asking, Order.Expander.run_asking_none]

theorem expanded_some_diagnostics (source : Source) (knows : String → Bool) (steps : List Step) :
    (expanded source (some knows) steps).diagnostics =
      Order.rejections knows (expanded source none steps).value.synthetic := by
  rw [expanded, expander_eq_asking, Order.Expander.run_asking_some]
  rfl

theorem warnings_rejections (knows : String → Bool) (effects : List Order.SyntheticStep) :
    (Order.rejections knows effects).warnings = (Order.rejections knows effects).length := by
  rw [Diagnostics.warnings, List.filter_eq_self.mpr]
  intro d hd
  obtain ⟨s, -, rfl⟩ := List.mem_map.mp hd
  rfl

end Compilation

def Compiled.addRemarks (c : Compiled) (ds : Diagnostics) : Compiled :=
  { c with diagnostics := c.diagnostics ++ ds }

def Summary.addWarnings (s : Summary) (count : Nat) : Summary :=
  { s with warnings := s.warnings + count }

namespace Compilation

theorem assemble_some (source : Source) (knows : String → Bool) (steps : List Step)
    (unusable : List StepFailure) (orchestrator : Option Orchestrator)
    (placements : List Placement) :
    assemble source (some knows) steps unusable orchestrator placements =
      ((assemble source none steps unusable orchestrator placements).1.addRemarks
          (Order.rejections knows (expanded source none steps).value.synthetic),
        (assemble source none steps unusable orchestrator placements).2.addWarnings
          (Order.rejections knows (expanded source none steps).value.synthetic).length) := by
  rw [← warnings_rejections]
  simp only [assemble, Compiled.addRemarks, Summary.addWarnings, expanded_value source (some knows),
    expanded_some_diagnostics, expanded_none_diagnostics, List.append_nil, Diagnostics.warnings,
    List.filter_append, List.length_append]

/-- Apart from the identifiers of side effects nothing is remarked on under their code. -/
theorem withCode_assemble_none (source : Source) (steps : List Step)
    (unusable : List StepFailure) (orchestrator : Option Orchestrator)
    (placements : List Placement) :
    (assemble source none steps unusable orchestrator placements).1.diagnostics.withCode
      Diagnostic.unverifiedSyntheticStep = [] := by
  simp only [assemble, expanded_none_diagnostics, List.append_nil]
  apply List.filter_eq_nil_iff.mpr
  have hcodes : Diagnostic.unverifiedSyntheticStep ∉ bindingCodes ++ Order.topologyCodes := by
    decide
  intro d hd hcode
  apply hcodes
  rw [← eq_of_beq hcode]
  rcases List.mem_append.mp hd with hd | hd
  · exact List.mem_append_left _ (code_mem_bindAll _ _ d hd)
  · exact List.mem_append_right _ (Order.code_mem_base _ _ _ d hd)

end Compilation

/-- A compilation that asks whether the identifiers of side effects exist fails exactly as one that
does not ask. If they succeed, the results differ in their remarks only: at the end there is one more
for each side effect with an identifier that is not known, and no other remark has its code. -/
theorem Source.compileWith_some (source : Source) (knows : String → Bool) :
    (∃ e, source.compile = .error e ∧ source.compileWith (some knows) = .error e) ∨
    ∃ compiled summary, source.compile = .ok (compiled, summary) ∧
      compiled.diagnostics.withCode Diagnostic.unverifiedSyntheticStep = [] ∧
      source.compileWith (some knows) =
        .ok (compiled.addRemarks (Order.rejections knows compiled.expansion.synthetic),
          summary.addWarnings (Order.rejections knows compiled.expansion.synthetic).length) := by
  rw [Source.compile, Compilation.compileWith_eq, Compilation.compileWith_eq,
    Compilation.compileFrom, Compilation.compileFrom, Compilation.expanded_value source (some knows)]
  generalize Compilation.extractAll source.description source.description.steps = extracted
  cases Compilation.orchestrator source.description extracted.1 with
  | error e => exact .inl ⟨e, rfl, rfl⟩
  | ok found =>
    simp only [Except.bind]
    cases Placement.resolve (Compilation.expanded source none extracted.1).value extracted.1
        source.description.transport source.overrides with
    | error e => exact .inl ⟨e, rfl, rfl⟩
    | ok placements =>
      refine .inr ⟨_, _, rfl, Compilation.withCode_assemble_none source _ _ _ _, ?_⟩
      rw [Except.map, Compilation.assemble_some]
      rfl

end PipelinePlan
