import PipelinePlan.Proofs.Compilation.Isolation
import PipelinePlan.Proofs.Except
import PipelinePlan.Proofs.Order.Base
import PipelinePlan.Proofs.Order.Identifiers
import PipelinePlan.Proofs.Placement.Numbering
import PipelinePlan.Proofs.Schema.ListingOrder

namespace PipelinePlan

namespace Compilation

theorem extractAll_length (d : Description) (declarations : List Declaration) :
    (extractAll d declarations).1.length + (extractAll d declarations).2.length =
      declarations.length := by
  induction declarations with
  | nil => rfl
  | cons declaration rest ih =>
    unfold extractAll
    cases extract d declaration with
    | ok step =>
      simp only [List.length_cons]
      omega
    | error e =>
      simp only [List.length_cons]
      omega

variable {pool : Except Schema.Error Schema.Pool}

theorem bindAll_length (pool : Except Schema.Error Schema.Pool) (steps : List Step) :
    (bindAll pool steps).steps.length + (bindAll pool steps).failures.length = steps.length := by
  induction steps with
  | nil => rfl
  | cons step rest ih =>
    unfold bindAll
    cases bindStep pool step with
    | ok outcome =>
      simp only [List.length_cons]
      omega
    | error e =>
      simp only [List.length_cons]
      omega

/-- A step has a binding and generated types exactly if it is one to bind. -/
theorem bindStep_eq_ok {step : Step} {outcome : Outcome CompiledStep}
    (h : bindStep pool step = .ok outcome) :
    outcome.value.step = step ∧
      outcome.value.binding.isSome = step.targets.has .grpcService ∧
      outcome.value.types.isSome = step.targets.has .grpcService := by
  unfold bindStep at h
  cases hgrpc : step.targets.has .grpcService with
  | false =>
    rw [hgrpc] at h
    cases h
    exact ⟨rfl, rfl, rfl⟩
  | true =>
    rw [hgrpc] at h
    cases pool with
    | error e => cases h
    | ok pool =>
      obtain ⟨binding, -, houtcome⟩ := bind_eq_ok_iff.mp h
      cases houtcome
      exact ⟨rfl, rfl, rfl⟩

theorem isSome_of_mem_bindAll {steps : List Step} {compiled : CompiledStep}
    (h : compiled ∈ (bindAll pool steps).steps) :
    compiled.binding.isSome = compiled.step.targets.has .grpcService ∧
      compiled.types.isSome = compiled.step.targets.has .grpcService := by
  rw [bindAll_steps] at h
  obtain ⟨step, -, hfate⟩ := List.mem_filterMap.mp h
  unfold fateOfStep at hfate
  split at hfate
  · next outcome hbind =>
    obtain rfl := Option.some.inj hfate
    obtain ⟨hstep, hbound⟩ := bindStep_eq_ok hbind
    rw [hstep]
    exact hbound
  · cases hfate

/-- Without failures every step is compiled. -/
theorem bindAll_complete {steps : List Step} (h : (bindAll pool steps).failures = []) :
    (bindAll pool steps).steps.map (·.step) = steps := by
  induction steps with
  | nil => rfl
  | cons step rest ih =>
    unfold bindAll at h ⊢
    cases hbind : bindStep pool step with
    | ok outcome =>
      simp only [hbind] at h ⊢
      rw [List.map_cons, ih h, (bindStep_eq_ok hbind).1]
    | error e =>
      simp only [hbind] at h
      cases h

end Compilation

/-- What the result of a compilation and its figures say about each other and about the source. -/
structure Accounts (source : Source) (compiled : Compiled) (summary : Summary) : Prop where
  steps : compiled.steps.length + compiled.failures.length = source.description.steps.length
  order : compiled.order.length = compiled.baseOrder.length + compiled.expansion.synthetic.length
  placements : compiled.placements.map (·.step) = compiled.order
  figures : summary = {
    name := source.name
    transport := compiled.transport
    schemaFiles := (Schema.Pool.build source.descriptors).toOption.map (·.files.length)
    schemaPasses := (Schema.Pool.build source.descriptors).toOption.map (·.passes)
    stepsDeclared := source.description.steps.length
    stepsCompiled := compiled.steps.length
    stepsFailed := compiled.failures.length
    syntheticSteps := compiled.expansion.synthetic.length
    orderLength := compiled.order.length
    orchestrator := compiled.orchestrator.isSome
    warnings := compiled.diagnostics.countP (·.severity == .warning) }
  passes : ∀ files passes, summary.schemaFiles = some files →
    summary.schemaPasses = some passes → passes ≤ files
  bound : ∀ step ∈ compiled.steps,
    step.binding.isSome = step.step.targets.has .grpcService ∧
      step.types.isSome = step.step.targets.has .grpcService
  ordered : compiled.failures = [] → ∀ identifier ∈ compiled.baseOrder,
    ∃ step ∈ compiled.steps, step.step.client compiled.transport = identifier

/-- In every compilation that succeeds the books balance. -/
theorem Source.compileWith_accounts {source : Source} {knows : Option (String → Bool)}
    {compiled : Compiled} {summary : Summary}
    (h : source.compileWith knows = .ok (compiled, summary)) :
    Accounts source compiled summary := by
  obtain ⟨found, placements, -, hplacements, hresult⟩ := compileWith_eq_ok h
  obtain ⟨rfl, rfl⟩ := Prod.mk.inj hresult
  refine {
    steps := ?steps
    order := Order.Expander.order_length _ _
    placements := Placement.resolve_steps hplacements
    figures := ?figures
    passes := ?passes
    bound := fun _ hstep => Compilation.isSome_of_mem_bindAll hstep
    ordered := ?ordered }
  case steps =>
    have hextract : source.extracted.length + _ = _ :=
      Compilation.extractAll_length source.description source.description.steps
    have hbind :=
      Compilation.bindAll_length (Schema.Pool.build source.descriptors) source.extracted
    simp only [List.length_append]
    omega
  case figures =>
    simp only [Diagnostics.warnings, List.countP_eq_length_filter]
    rfl
  case passes =>
    intro files passes hfiles hpasses
    obtain ⟨pool, hpool, rfl⟩ := Option.map_eq_some_iff.mp hfiles
    obtain ⟨pool', hpool', rfl⟩ := Option.map_eq_some_iff.mp hpasses
    obtain rfl : pool = pool' := Option.some.inj (hpool.symm.trans hpool')
    exact Schema.passes_le_length (toOption_eq_some_iff.mp hpool)
  case ordered =>
    intro hfailures identifier hidentifier
    have hcomplete := Compilation.bindAll_complete (List.append_eq_nil_iff.mp hfailures).2
    obtain ⟨step, hstep, hclient⟩ := Order.exists_step_of_mem_base hidentifier
    rw [← hcomplete] at hstep
    obtain ⟨compiled, hcompiled, rfl⟩ := List.mem_map.mp hstep
    exact ⟨compiled, hcompiled, hclient⟩

def desk : Source where
  name := "desk"
  description := {
    baseSpace := "acme"
    steps := [
      { name := "pay", outputType := some "acme.Bill" },
      { name := "box", grpcEnabled := some false, restEnabled := some true }]
    aspects := .ofList [("log", {})] }
  descriptors := [{
    name := some "pay.proto"
    package := some "acme"
    messages := [.mk (some "Bill") []]
    services := [{
      name := some "ProcessPayService"
      methods := [{
        name := some "remoteProcess"
        inputType := some ".acme.Bill"
        outputType := some ".acme.Bill" }] }] }]

theorem desk_accounts :
    ∃ compiled summary, desk.compileWith none = .ok (compiled, summary) ∧
      compiled.steps.map (·.binding.isSome) = [true, false] ∧
      compiled.steps.length + compiled.failures.length = 2 ∧
      compiled.order.length = compiled.baseOrder.length + 1 ∧
      ∀ identifier ∈ compiled.baseOrder,
        ∃ step ∈ compiled.steps, step.step.client compiled.transport = identifier := by
  have hcompiles : (desk.compileWith none).toOption.any (fun result =>
      decide (result.1.steps.map (·.binding.isSome) = [true, false] ∧
        result.1.expansion.synthetic.length = 1 ∧ result.1.failures = [])) = true := by
    decide +kernel
  obtain ⟨⟨compiled, summary⟩, hsome, hfacts⟩ := (Option.any_eq_true _ _).mp hcompiles
  obtain ⟨hbound, hsynthetic, hfailures⟩ := of_decide_eq_true hfacts
  have hresult := toOption_eq_some_iff.mp hsome
  have haccounts := Source.compileWith_accounts hresult
  refine ⟨compiled, summary, hresult, hbound, haccounts.steps, ?_, haccounts.ordered hfailures⟩
  rw [haccounts.order, hsynthetic]

end PipelinePlan
