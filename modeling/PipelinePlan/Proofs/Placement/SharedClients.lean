import PipelinePlan.Placement.Basic
import PipelinePlan.Proofs.Order.TopologyEntries

namespace PipelinePlan

variable {steps : List Step} {transport : Transport} {identifier : String} {step : Step}

def Step.IsFirst (steps : List Step) (transport : Transport) (identifier : String)
    (step : Step) : Prop :=
  ∃ before after, steps = before ++ step :: after ∧ step.client transport = identifier ∧
    ∀ other ∈ before, other.client transport ≠ identifier

def Step.IsLast (steps : List Step) (transport : Transport) (identifier : String)
    (step : Step) : Prop :=
  ∃ before after, steps = before ++ step :: after ∧ step.client transport = identifier ∧
    ∀ other ∈ after, other.client transport ≠ identifier

theorem Placement.stepOf?_eq_some_iff :
    stepOf? steps transport identifier = some step ↔ step.IsFirst steps transport identifier := by
  simp [stepOf?, List.find?_eq_some_iff_append, Step.IsFirst, and_left_comm]

theorem Step.isLast_iff :
    step.IsLast steps transport identifier ↔
      steps.reverse.find? (·.client transport == identifier) = some step := by
  rw [List.find?_eq_some_iff_append]
  constructor
  · rintro ⟨before, after, rfl, hclient, hafter⟩
    exact ⟨by simpa using hclient, after.reverse, before.reverse, by simp, by simpa using hafter⟩
  · rintro ⟨hclient, after, before, hsteps, hafter⟩
    refine ⟨before.reverse, after.reverse, ?_, by simpa using hclient, by simpa using hafter⟩
    rw [← List.reverse_reverse steps, hsteps]
    simp

/-- The contract under a client adapter is that of the step that its entries are placed as. -/
def ContractPlaced (steps : List Step) (transport : Transport) (identifier : String) : Prop :=
  ∃ contract placed, (Order.contracts steps transport).find? identifier = some contract ∧
    Placement.stepOf? steps transport identifier = some placed ∧
    contract.name = some placed.name ∧ contract.inputType = placed.input.domainType ∧
    contract.outputType = placed.output.domainType

/-- Only the first step with the client adapter counts for the placement of an entry. -/
theorem Placement.assignStep_of_isFirst (h : step.IsFirst steps transport identifier)
    (overrides : Overrides) :
    assignStep overrides steps transport identifier =
      assignStep overrides [step] transport identifier := by
  have hclient : step.client transport = identifier := by
    obtain ⟨-, -, -, hclient, -⟩ := h
    exact hclient
  have halone : stepOf? [step] transport identifier = some step := by
    simp [stepOf?, hclient]
  simp only [assignStep, stepOf?_eq_some_iff.mpr h, halone]

/-- Entries with a client adapter that some step has are placed as the first such step, and the
contract is that of the last. They are the contract and the placement of one step exactly if both
steps declare the same name and types. -/
theorem contractPlaced_iff (h : ∃ step ∈ steps, step.client transport = identifier) :
    ∃ first last, first.IsFirst steps transport identifier ∧
      last.IsLast steps transport identifier ∧
      Placement.stepOf? steps transport identifier = some first ∧
      (∀ overrides, Placement.assignStep overrides steps transport identifier =
        Placement.assignStep overrides [first] transport identifier) ∧
      (Order.contracts steps transport).find? identifier = some (.ofStep last) ∧
      (ContractPlaced steps transport identifier ↔ first.name = last.name ∧
        first.input.domainType = last.input.domainType ∧
        first.output.domainType = last.output.domainType) := by
  obtain ⟨step, hstep, hclient⟩ := h
  have hfound : (Placement.stepOf? steps transport identifier).isSome = true :=
    List.find?_isSome.mpr ⟨step, hstep, beq_iff_eq.mpr hclient⟩
  have hfoundLast : (steps.reverse.find? (·.client transport == identifier)).isSome = true :=
    List.find?_isSome.mpr ⟨step, List.mem_reverse.mpr hstep, beq_iff_eq.mpr hclient⟩
  obtain ⟨first, hplaced⟩ := Option.isSome_iff_exists.mp hfound
  obtain ⟨last, hlast⟩ := Option.isSome_iff_exists.mp hfoundLast
  have hcontract : (Order.contracts steps transport).find? identifier = some (.ofStep last) := by
    rw [Order.find?_contracts, hlast, Option.map_some]
  have hisFirst := Placement.stepOf?_eq_some_iff.mp hplaced
  refine ⟨first, last, hisFirst, Step.isLast_iff.mpr hlast, hplaced,
    Placement.assignStep_of_isFirst hisFirst, hcontract, ?_⟩
  simp [ContractPlaced, hplaced, hcontract, Order.Contract.ofStep, eq_comm]

def payDeclaration : Declaration where
  name := "pay"
  outputType := some "acme.Bill"
  grpcEnabled := some false
  restEnabled := some true

def processPayDeclaration : Declaration where
  name := "process-pay"
  outputType := some "acme.Note"
  grpcEnabled := some false
  restEnabled := some true
  role := some "PLUGIN_SERVER"

def stepsOf (declarations : List Declaration) : List Step :=
  (Compilation.extractAll { baseSpace := "acme" } declarations).1

def twoPays : List Step := stepsOf [payDeclaration, processPayDeclaration]

def threePays : List Step := stepsOf [payDeclaration, processPayDeclaration, payDeclaration]

def payClient : String := "acme.ProcessPayGrpcClientStep"

theorem pays_facts :
    (Placement.stepOf? twoPays .grpc payClient).map (·.name) = some "pay" ∧
    (Order.contracts twoPays .grpc).find? payClient =
      some ⟨some "process-pay", none, some "acme.Note"⟩ ∧
    payClient ∈ threePays.map (·.client .grpc) ∧
    (Placement.stepOf? threePays .grpc payClient).map Order.Contract.ofStep =
      (Order.contracts threePays .grpc).find? payClient := by
  decide +kernel

theorem threePays_contractPlaced : (∃ step ∈ threePays, step.client .grpc = payClient) ∧
    ContractPlaced threePays .grpc payClient := by
  obtain ⟨-, -, hclients, hsame⟩ := pays_facts
  have hshared := List.mem_map.mp hclients
  obtain ⟨first, last, -, -, hplaced, -, hcontract, hiff⟩ := contractPlaced_iff hshared
  rw [hplaced, hcontract, Option.map_some] at hsame
  obtain ⟨hname, hinput, houtput⟩ := Order.Contract.mk.inj (Option.some.inj hsame)
  exact ⟨hshared, hiff.mpr ⟨Option.some.inj hname, hinput, houtput⟩⟩

/-- The entries of the shared client adapter are placed as one step and have the contract of the
other. -/
theorem twoPays_not_contractPlaced : (∃ step ∈ twoPays, step.client .grpc = payClient) ∧
    ¬ContractPlaced twoPays .grpc payClient := by
  obtain ⟨hname, hcontract, -⟩ := pays_facts
  obtain ⟨placed, hplaced, hpay⟩ := Option.map_eq_some_iff.mp hname
  constructor
  · obtain ⟨before, after, hsteps, hclient, -⟩ := Placement.stepOf?_eq_some_iff.mp hplaced
    exact ⟨placed, by simp [hsteps], hclient⟩
  · rintro ⟨contract, placed', hcontract', hplaced', hname', -⟩
    rw [hcontract] at hcontract'
    rw [hplaced] at hplaced'
    cases hcontract'
    cases hplaced'
    rw [hpay] at hname'
    revert hname'
    decide

end PipelinePlan
