import PipelinePlan.Proofs.Compilation.Isolation
import PipelinePlan.Proofs.Except
import PipelinePlan.Proofs.Order.Base

namespace PipelinePlan

theorem Orchestrator.derive_types {topology : Topology} {baseSpace : String}
    {transport : Transport} {markers : List Marker} {steps : List Step}
    {orchestrator : Orchestrator}
    (h : derive topology baseSpace transport markers steps = .ok (some orchestrator)) :
    ∃ first last, topology.head? = some first ∧ topology.getLast? = some last ∧
      orchestrator.inputType = Text.trim first.inputType ∧
      orchestrator.outputType = Text.trim last.outputType := by
  unfold derive at h
  simp only [bind, Except.bind, pure, Except.pure, throw, throwThe, MonadExceptOf.throw] at h
  split at h
  · next first hfirst =>
    split at h
    · next last hlast =>
      refine ⟨first, last, hfirst, hlast, ?_⟩
      -- Of the other checks only the last branch gives an orchestrator.
      repeat' split at h
      all_goals cases h
      all_goals exact ⟨rfl, rfl⟩
    · cases h
  · cases h

theorem Compilation.orchestrator_eq_some {d : Description} {steps : List Step}
    {found : Orchestrator} (h : orchestrator d steps = .ok (some found)) :
    d.topology ≠ [] ∧
      Orchestrator.derive d.topology d.baseSpace d.transport d.orchestrator steps =
        .ok (some found) := by
  unfold orchestrator at h
  split at h
  · next hempty =>
    cases hmarker : Orchestrator.marker? d.orchestrator <;> rw [hmarker] at h <;> cases h
  · next hempty => exact ⟨by simpa using hempty, h⟩

namespace Source

variable {source : Source} {knows : Option (String → Bool)} {compiled : Compiled}
  {summary : Summary} {artifacts : Artifacts}

def entries (source : Source) : List (TopologyEntry × Option Step) :=
  source.description.topology.matched source.extracted

def refersTo (source : Source) (client : String) (entry : TopologyEntry × Option Step) : Bool :=
  Topology.refersTo source.description.transport client entry

def firstFor? (source : Source) (client : String) : Option Nat :=
  source.description.topology.firstFor? source.extracted source.description.transport client

def ConsumesFirst (source : Source) (boundary : TelemetryBoundary) : Prop :=
  ∀ client, boundary.consumerStep = some client →
    source.entries.head?.any (source.refersTo client) = true

def ProducesLast (source : Source) (boundary : TelemetryBoundary) : Prop :=
  ∀ client, boundary.producerStep = some client →
    source.entries.getLast?.any (source.refersTo client) = true

theorem artifacts_eq_some (h : source.compileWith knows = .ok (compiled, summary))
    (hartifacts : compiled.artifacts = some artifacts) :
    ∃ orchestrator,
      Compilation.orchestrator source.description source.extracted = .ok (some orchestrator) ∧
      artifacts = {
        executionOrder := ⟨compiled.expansion.order⟩
        telemetryBoundary := {
          itemInputType := orchestrator.inputType
          itemOutputType := orchestrator.outputType
          producerStep := compiled.baseOrder.getLast?
          consumerStep := compiled.baseOrder.head?
          sideEffectParents := compiled.expansion.parents } } ∧
      compiled.baseOrder = (Order.base source.description.topology source.extracted
        source.description.transport).value := by
  obtain ⟨found, placements, hfound, -, hresult⟩ := compileWith_eq_ok h
  obtain ⟨rfl, -⟩ := Prod.mk.inj hresult
  obtain ⟨orchestrator, rfl, hbuilt⟩ := Option.map_eq_some_iff.mp hartifacts
  exact ⟨orchestrator, hfound, hbuilt.symm, rfl⟩

/-- The types at the boundary are those of the first and the last entry. The consumer is the step
that the entries refer to before all others, the producer the one that they refer to for the first
time after all others. The consumer is the step of the first entry exactly if that refers to a step,
and the producer that of the last entry exactly if that refers to a step after which no new one is
referred to, unless no entry refers to any. -/
theorem compileWith_boundary (h : source.compileWith knows = .ok (compiled, summary))
    (hartifacts : compiled.artifacts = some artifacts) :
    (∃ first last, source.description.topology.head? = some first ∧
      source.description.topology.getLast? = some last ∧
      artifacts.telemetryBoundary.itemInputType = Text.trim first.inputType ∧
      artifacts.telemetryBoundary.itemOutputType = Text.trim last.outputType) ∧
    (∀ client, artifacts.telemetryBoundary.consumerStep = some client ↔
      ∃ p, source.firstFor? client = some p ∧
        ∀ other q, source.firstFor? other = some q → p ≤ q) ∧
    (∀ client, artifacts.telemetryBoundary.producerStep = some client ↔
      ∃ p, source.firstFor? client = some p ∧
        ∀ other q, source.firstFor? other = some q → q ≤ p) ∧
    (source.ConsumesFirst artifacts.telemetryBoundary ↔
      (∃ entry step, source.entries.head? = some (entry, some step)) ∨
        ∀ entry ∈ source.entries, entry.2 = none) ∧
    (source.ProducesLast artifacts.telemetryBoundary ↔
      (∃ entry step p, source.entries.getLast? = some (entry, some step) ∧
        source.firstFor? (step.client source.description.transport) = some p ∧
        ∀ other q, source.firstFor? other = some q → q ≤ p) ∨
      ∀ entry ∈ source.entries, entry.2 = none) := by
  obtain ⟨orchestrator, hfound, rfl, hbase⟩ := artifacts_eq_some h hartifacts
  obtain ⟨htopology, hderive⟩ := Compilation.orchestrator_eq_some hfound
  unfold ConsumesFirst ProducesLast
  rw [hbase]
  exact ⟨Orchestrator.derive_types hderive, fun _ => Order.head?_base_iff htopology,
    fun _ => Order.getLast?_base_iff htopology, Order.head?_base_refers_iff htopology,
    Order.getLast?_base_refers_iff htopology⟩

def parsing : Declaration where
  name := "parse"
  grpcEnabled := some false
  restEnabled := some true

def pricing : Source where
  name := "pricing"
  description := {
    baseSpace := "acme"
    steps := [parsing, { parsing with name := "price" }]
    topology := [
      { name := "parse", inputType := "acme.Raw", outputType := "acme.Order" },
      { name := "price", inputType := "acme.Order", outputType := "acme.Bill" }] }

theorem pricing_ends :
    ((pricing.compileWith none).toOption.bind (·.1.artifacts)).isSome = true ∧
    (pricing.entries.head?.bind (·.2)).isSome = true ∧
    (pricing.entries.getLast?.bind (·.2)).any
      (·.client .grpc == "acme.ProcessPriceGrpcClientStep") = true ∧
    pricing.firstFor? "acme.ProcessPriceGrpcClientStep" = some 1 ∧
    pricing.entries.length = 2 := by
  decide +kernel

theorem pricing_boundary :
    ∃ compiled summary artifacts, pricing.compileWith none = .ok (compiled, summary) ∧
      compiled.artifacts = some artifacts ∧
      pricing.ConsumesFirst artifacts.telemetryBoundary ∧
      pricing.ProducesLast artifacts.telemetryBoundary := by
  obtain ⟨hcompiles, hhead, hlast, hfirst, hlength⟩ := pricing_ends
  obtain ⟨artifacts, hbind⟩ := Option.isSome_iff_exists.mp hcompiles
  obtain ⟨⟨compiled, summary⟩, hsome, hartifacts⟩ := Option.bind_eq_some_iff.mp hbind
  have hresult := toOption_eq_some_iff.mp hsome
  obtain ⟨-, -, -, hconsumes, hproduces⟩ := compileWith_boundary hresult hartifacts
  refine ⟨compiled, summary, artifacts, hresult, hartifacts, ?_, ?_⟩
  · obtain ⟨step, hstep⟩ := Option.isSome_iff_exists.mp hhead
    obtain ⟨⟨entry, found⟩, hentry, rfl⟩ := Option.bind_eq_some_iff.mp hstep
    exact hconsumes.mpr (.inl ⟨entry, step, hentry⟩)
  · obtain ⟨step, hstep, hclient⟩ := (Option.any_eq_true _ _).mp hlast
    obtain ⟨⟨entry, found⟩, hentry, rfl⟩ := Option.bind_eq_some_iff.mp hstep
    have hp : pricing.firstFor? (step.client .grpc) = some 1 := by
      rw [eq_of_beq hclient]
      exact hfirst
    refine hproduces.mpr (.inl ⟨entry, step, 1, hentry, hp, ?_⟩)
    intro other q hq
    have hlt : q < pricing.entries.length := (Order.firstFor?_eq_some_iff_firstPlace.mp hq).1
    omega

/-- The same steps, and a last entry that comes back to the first of them. -/
def repricing : Source :=
  { pricing with description := { pricing.description with
      topology := pricing.description.topology ++
        [{ name := "parse", inputType := "acme.Bill", outputType := "acme.Report" }] } }

/-- The second step is said to produce what only the third entry gives. -/
theorem repricing_producer :
    ∃ compiled summary artifacts, repricing.compileWith none = .ok (compiled, summary) ∧
      compiled.artifacts = some artifacts ∧
      artifacts.telemetryBoundary.itemOutputType = "acme.Report" ∧
      artifacts.telemetryBoundary.producerStep = some "acme.ProcessPriceGrpcClientStep" ∧
      ¬repricing.ProducesLast artifacts.telemetryBoundary := by
  obtain ⟨hboundary, hlast⟩ :
      ((repricing.compileWith none).toOption.bind (·.1.artifacts)).map (·.telemetryBoundary) =
        some {
          itemInputType := "acme.Raw"
          itemOutputType := "acme.Report"
          producerStep := some "acme.ProcessPriceGrpcClientStep"
          consumerStep := some "acme.ProcessParseGrpcClientStep" } ∧
      repricing.entries.getLast?.any
        (repricing.refersTo "acme.ProcessPriceGrpcClientStep") = false := by
    decide +kernel
  obtain ⟨artifacts, hbind, heq⟩ := Option.map_eq_some_iff.mp hboundary
  obtain ⟨⟨compiled, summary⟩, hsome, hartifacts⟩ := Option.bind_eq_some_iff.mp hbind
  refine ⟨compiled, summary, artifacts, toOption_eq_some_iff.mp hsome, hartifacts, by rw [heq],
    by rw [heq], ?_⟩
  intro hproduces
  have hany := hproduces "acme.ProcessPriceGrpcClientStep" (by rw [heq])
  rw [hlast] at hany
  cases hany

end Source

end PipelinePlan
