import PipelinePlan.Description.Basic

namespace PipelinePlan

structure Orchestrator where
  entrypoint : Step
  baseSpace : String
  transport : Transport
  inputType : String
  outputType : String
  inputStreaming : Bool
  outputStreaming : Bool
  firstService : String
  firstShape : Shape
  cli : Option Marker := none
  deriving DecidableEq, Repr

namespace Orchestrator

def stepName : String := "orchestrator"

def serviceName : String := "OrchestratorService"

def marker? : List Marker → Except Error (Option Marker)
  | [] => .ok none
  | [marker] => .ok (some marker)
  | many => .error (.multipleOrchestrators (many.map (·.name)))

def entrypointFor (space : String) (transport : Transport) (inputType outputType : String)
    (shape : Shape) : Step where
  name := stepName
  serviceName := serviceName
  serviceSpace := space
  qualifiedService := Name.qualify space serviceName
  input := .domainOnly inputType
  output := .domainOnly outputType
  shape := shape
  targets := match transport with
    | .grpc => { grpcService := true }
    | .rest => { restResource := true }
  execution := .default
  role := .orchestratorClient

/-- The orchestrator for a topology, or none if a type at its boundary is blank. -/
def derive (topology : Topology) (baseSpace : String) (transport : Transport)
    (markers : List Marker) (steps : List Step) : Except Error (Option Orchestrator) := do
  let some first := topology.head? | throw (.configuration stepName "topology is empty")
  let some last := topology.getLast? | throw (.configuration stepName "topology is empty")
  let space := Text.trim baseSpace
  if space.isEmpty then throw (.configuration stepName "base namespace is blank")
  let cli ← marker? markers
  let inputType := Text.trim first.inputType
  let outputType := Text.trim last.outputType
  if inputType.isEmpty || outputType.isEmpty then return none
  let matched := topology.matched steps
  let shapes ← matched.mapM fun (entry, step) => entry.shapeWith step
  let firstShape := shapes.head?.getD .unaryUnary
  let inputStreaming := firstShape.inputStreaming
  let outputStreaming := shapes.any Shape.outputStreaming
  let firstService := match matched.head?.bind (·.2) with
    | some step => step.serviceName
    | none => Naming.serviceOfStep first.name
  let entrypoint := entrypointFor space transport inputType outputType
    (.ofFlags inputStreaming outputStreaming)
  return some {
    entrypoint
    baseSpace := space
    transport
    inputType
    outputType
    inputStreaming
    outputStreaming
    firstService
    firstShape
    cli }

def toJson (o : Orchestrator) : Json := .record <| [
  ("entrypoint", o.entrypoint.toJson),
  ("base_namespace", .text o.baseSpace),
  ("transport", o.transport.toJson),
  ("input_type", .text o.inputType),
  ("output_type", .text o.outputType),
  ("input_streaming", .bool o.inputStreaming),
  ("output_streaming", .bool o.outputStreaming),
  ("first_step_service", .text o.firstService),
  ("first_step_shape", o.firstShape.toJson)] ++
  Json.present "cli" (o.cli.map Marker.toJson)

end Orchestrator

end PipelinePlan
