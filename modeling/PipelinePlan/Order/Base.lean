import PipelinePlan.Description.Basic
import PipelinePlan.Diagnostic

namespace PipelinePlan.Order

structure Progress where
  order : List String := []
  diagnostics : Diagnostics := []

def Progress.place (transport : Transport) (progress : Progress)
    (entry : TopologyEntry × Option Step) : Progress :=
  match entry.2 with
  | none =>
    { progress with diagnostics := progress.diagnostics ++
        [.warning Diagnostic.topologyStepUnmatched entry.1.name
          "topology step matches no declared step"] }
  | some step =>
    let client := step.client transport
    if progress.order.contains client then
      { progress with diagnostics := progress.diagnostics ++
          [.warning Diagnostic.topologyStepDuplicate entry.1.name
            s!"topology step resolves to '{step.name}', which is already ordered"] }
    else { progress with order := progress.order ++ [client] }

/-- The first of several equal texts each. -/
def firsts (seen : List String) : List String → List String
  | [] => seen
  | s :: rest => firsts (if seen.contains s then seen else seen ++ [s]) rest

/-- The steps that are no side effects of others. -/
def mainSteps (steps : List Step) : List Step := steps.filter (!·.sideEffect)

def unreached (transport : Transport) (order : List String) (steps : List Step) : Diagnostics :=
  ((mainSteps steps).filter fun step => !order.contains (step.client transport)).map fun step =>
    .warning Diagnostic.stepNotInTopology step.name
      "declared step is not reached by any topology entry"

/-- The client adapters of the steps in the order of the topology, each once. Without a topology it
is the order of declaration. -/
def base (topology : Topology) (steps : List Step) (transport : Transport) :
    Outcome (List String) :=
  if topology.isEmpty then { value := firsts [] ((mainSteps steps).map (·.client transport)) }
  else
    let placed := (topology.matched steps).foldl (Progress.place transport) {}
    { value := placed.order
      diagnostics := placed.diagnostics ++ unreached transport placed.order steps }

end PipelinePlan.Order
