import PipelinePlan.Proofs.Description.Extraction
import PipelinePlan.Proofs.Order.Base
import PipelinePlan.Proofs.Order.Identifiers

namespace PipelinePlan

namespace Order

theorem firstEffects_eq_nil_iff {effects : List SyntheticStep} :
    firstEffects effects = [] ↔ effects = [] := by
  cases effects with
  | nil => exact iff_of_true rfl rfl
  | cons s rest =>
    rw [firstEffects, List.eraseDupsBy_cons]
    simp

namespace Expander

variable {x : Expander} {base : List String}

theorem order_eq_base_of_synthetic_eq_nil (h : (x.run base).value.synthetic = []) :
    (x.run base).value.order = base := by
  have herase := order_erase_synthetic x base
  rw [h, List.map_nil, List.filter_eq_self.mpr (by simp)] at herase
  exact herase

/-- No expander touches an order in which another has put a side effect. -/
theorem run_of_synthetic_ne_nil (h : (x.run base).value.synthetic ≠ []) (y : Expander) :
    y.run (x.run base).value.order = { value := { order := (x.run base).value.order } } := by
  obtain ⟨s, hs⟩ := List.exists_mem_of_ne_nil _ h
  have hmem : s.identifier ∈ (x.run base).value.order := by
    apply (order_perm x base).mem_iff.mpr
    exact List.mem_append_right _ (List.mem_map_of_mem hs)
  apply run_of_not_applies
  intro happ
  have hmark := happ.2.1 _ hmem
  rw [isSideEffect_of_mem_synthetic hs] at hmark
  cases hmark

/-- An aspect in force that concerns all steps finds a type at a step of the order. -/
def FindsType (x : Expander) (base : List String) : Prop :=
  ∃ entry ∈ x.eligible, entry.2.scope = .global ∧
    ∃ step ∈ base, (x.type? step entry.2.position).isSome = true

instance (x : Expander) (base : List String) : Decidable (x.FindsType base) :=
  inferInstanceAs (Decidable (∃ entry ∈ x.eligible, entry.2.scope = .global ∧
    ∃ step ∈ base, (x.type? step entry.2.position).isSome = true))

theorem FindsType.allCandidates_ne_nil (h : x.FindsType base) : x.allCandidates base ≠ [] := by
  obtain ⟨⟨name, aspect⟩, heligible, hscope, step, hstep, htype⟩ := h
  obtain ⟨type, htype⟩ := Option.isSome_iff_exists.mp htype
  have hcandidate : x.candidate? step (name, aspect) =
      some (x.sideEffect step name type aspect.position) := by
    have hscope' : x.inScope step aspect = true := by
      unfold inScope
      rw [hscope]
    simp only [candidate?, hscope', if_true]
    rw [htype, Option.map_some]
  have hmem : x.sideEffect step name type aspect.position ∈
      x.candidates aspect.position step := by
    apply List.mem_filterMap.mpr
    exact ⟨(name, aspect), List.mem_filter.mpr ⟨heligible, by simp⟩, hcandidate⟩
  have hsides : x.candidates aspect.position step ⊆
      x.candidates .before step ++ x.candidates .after step := by
    cases aspect.position with
    | before => exact List.subset_append_left _ _
    | after => exact List.subset_append_right _ _
  apply List.ne_nil_of_mem
  exact List.mem_flatMap.mpr ⟨step, hstep, hsides hmem⟩

/-- Where a type is found, only what is spelled like a side effect keeps one from being added. -/
theorem FindsType.synthetic_ne_nil_iff (h : x.FindsType base) :
    (x.run base).value.synthetic ≠ [] ↔
      ∀ identifier ∈ base, Naming.isSideEffect identifier = false := by
  constructor
  · intro hsome
    by_contra hmark
    apply hsome
    rw [run_of_not_applies fun happ => hmark happ.2.1]
  · intro hnone
    have happ : x.Applies base := by
      obtain ⟨entry, heligible, -, step, hstep, -⟩ := h
      exact ⟨List.ne_nil_of_mem hstep, hnone, entry, mem_eligible.mp heligible⟩
    rw [synthetic_of_applies happ, ne_eq, firstEffects_eq_nil_iff]
    exact h.allCandidates_ne_nil

/-- Expanding an expanded order gives the same order. Once a side effect is in an order, every
expander returns it as it is and has nothing to remark. -/
theorem run_run_order (x : Expander) (base : List String) :
    (x.run (x.run base).value.order).value.order = (x.run base).value.order ∧
    ((x.run base).value.synthetic ≠ [] → ∀ y : Expander, y.run (x.run base).value.order =
      { value := { order := (x.run base).value.order, synthetic := [] }, diagnostics := [] }) := by
  refine ⟨?_, fun h => run_of_synthetic_ne_nil h⟩
  by_cases h : (x.run base).value.synthetic = []
  · rw [order_eq_base_of_synthetic_eq_nil h, order_eq_base_of_synthetic_eq_nil h]
  · rw [run_of_synthetic_ne_nil h]

def auditStep : Declaration where
  name := "side-effect-audit"
  space := some "acme"
  outputType := some "acme.Order"

def auditing : Description where
  baseSpace := "acme"
  steps := [auditStep]
  aspects := .ofList [("persistence", {})]

def auditSteps : List Step := (Compilation.extractAll auditing auditing.steps).1

def auditOrder : List String := (Order.base [] auditSteps .grpc).value

def auditExpander : Expander := Compilation.expander auditing auditSteps none

theorem auditOrder_unmarked :
    auditExpander.FindsType auditOrder ∧
    "acme.ProcessSideEffectAuditGrpcClientStep" ∈ auditOrder ∧
    (∀ identifier ∈ auditOrder, Naming.isSideEffect identifier = false) ∧
    (∀ step ∈ auditSteps, Naming.namesSideEffect step.serviceName = false) ∧
    (auditStep.toStep none).isOk = true := by
  decide +kernel

theorem auditOrder_expanded_once :
    (auditExpander.run auditOrder).value.synthetic ≠ [] ∧
    ∀ y : Expander, y.run (auditExpander.run auditOrder).value.order =
      { value := { order := (auditExpander.run auditOrder).value.order } } := by
  have hfinds := auditOrder_unmarked.1
  have hsome := hfinds.synthetic_ne_nil_iff.mpr auditOrder_unmarked.2.2.1
  exact ⟨hsome, (run_run_order auditExpander auditOrder).2 hsome⟩

section BaseOrder

variable {topology : Topology} {steps : List Step} {transport : Transport}

theorem isSideEffect_of_mem_base_iff {identifier : String}
    (h : identifier ∈ (Order.base topology steps transport).value) :
    Naming.isSideEffect identifier = true ↔
      ∃ step ∈ steps, step.client transport = identifier ∧
        Naming.namesSideEffect step.serviceName = true := by
  constructor
  · intro hmark
    obtain ⟨step, hstep, rfl⟩ := exists_step_of_mem_base h
    exact ⟨step, hstep, rfl, (Naming.isSideEffect_client_iff _ _ _).mp hmark⟩
  · rintro ⟨step, -, rfl, hname⟩
    exact (Naming.isSideEffect_client_iff _ _ _).mpr hname

end BaseOrder

/-- In a base order the client adapters of services that are named like side effects, and no others,
are taken for side effects. So where an aspect that concerns all steps finds a type, a side effect
is added exactly if no ordered step has such a service. The service of a step that names none is
such a one exactly if the step's own name, with its words run together, is such a name. -/
theorem run_base_inserts_iff (topology : Topology) (steps : List Step) (transport : Transport) :
    (∀ identifier ∈ (Order.base topology steps transport).value,
      (Naming.isSideEffect identifier = true ↔
        ∃ step ∈ steps, step.client transport = identifier ∧
          Naming.namesSideEffect step.serviceName = true)) ∧
    (∀ x : Expander, x.FindsType (Order.base topology steps transport).value →
      ((x.run (Order.base topology steps transport).value).value.synthetic ≠ [] ↔
        ∀ step ∈ steps, step.client transport ∈ (Order.base topology steps transport).value →
          Naming.namesSideEffect step.serviceName = false)) ∧
    ∀ declaration config step, Declaration.toStep declaration config = .ok step →
      givenText declaration.serviceName = none →
      Naming.namesSideEffect step.serviceName =
        Naming.namesSideEffect (Text.pascal step.name) := by
  refine ⟨fun identifier h => isSideEffect_of_mem_base_iff h, ?_, ?_⟩
  · intro x hfinds
    rw [hfinds.synthetic_ne_nil_iff]
    constructor
    · intro hnone step hstep hmem
      have hmark := hnone _ hmem
      rw [← Bool.not_eq_true, isSideEffect_of_mem_base_iff hmem] at hmark
      rw [← Bool.not_eq_true]
      exact fun hname => hmark ⟨step, hstep, rfl, hname⟩
    · intro hnone identifier hmem
      rw [← Bool.not_eq_true, isSideEffect_of_mem_base_iff hmem]
      rintro ⟨step, hstep, rfl, hname⟩
      rw [hnone step hstep hmem] at hname
      cases hname
  · intro declaration config step hstep hservice
    rw [Declaration.toStep_serviceName hstep, hservice, Option.getD_none,
      Naming.namesSideEffect_serviceOfStep]

theorem auditOrder_inserts :
    Naming.isSideEffect "acme.ProcessSideEffectAuditGrpcClientStep" = false ∧
    (auditExpander.run auditOrder).value.synthetic ≠ [] ∧
    ∃ step, auditStep.toStep none = .ok step ∧
      Naming.namesSideEffect step.serviceName = Naming.namesSideEffect (Text.pascal step.name) := by
  have h := run_base_inserts_iff [] auditSteps .grpc
  rw [← auditOrder] at h
  obtain ⟨hmarked, hinserts, hnamed⟩ := h
  obtain ⟨hfinds, hmem, -, hnone, hok⟩ := auditOrder_unmarked
  refine ⟨?_, ?_, ?_⟩
  · rw [← Bool.not_eq_true, hmarked _ hmem]
    rintro ⟨step, hstep, -, hname⟩
    rw [hnone step hstep] at hname
    cases hname
  · exact (hinserts auditExpander hfinds).mpr fun step hstep _ => hnone step hstep
  · cases hstep : auditStep.toStep none with
    | ok step => exact ⟨step, rfl, hnamed auditStep none step hstep rfl⟩
    | error e =>
      rw [hstep] at hok
      cases hok

/-- A step whose service is named like a side effect. -/
def undoing : Description :=
  { auditing with steps := [{
      name := "undo-side-effect"
      outputType := some "acme.Order"
      grpcEnabled := some false
      restEnabled := some true }] }

def undoSteps : List Step := (Compilation.extractAll undoing undoing.steps).1

def undoOrder : List String := (Order.base [] undoSteps .grpc).value

def undoExpander : Expander := Compilation.expander undoing undoSteps none

/-- The order of this one step is taken for an expanded one, and nothing is added to it. -/
theorem undoOrder_left_alone :
    (∃ identifier ∈ undoOrder, Naming.isSideEffect identifier = true) ∧
    undoExpander.FindsType undoOrder ∧
    (undoExpander.run undoOrder).value.synthetic = [] := by
  decide +kernel

end Expander

end Order

end PipelinePlan
