import PipelinePlan.Host.Basic
import PipelinePlan.Json.Writer
import PipelinePlan.Orchestrator
import PipelinePlan.Order.Expansion

namespace PipelinePlan

structure ExecutionOrder where
  order : List String
  deriving DecidableEq, Repr

namespace ExecutionOrder

def toJson (e : ExecutionOrder) : Json := .record [("order", .texts e.order)]

def ofJson? (json : Json) : Option ExecutionOrder := do
  let fields ← json.fields? .json 1
  let order ← fields.required 0 "order" (Json.asList? Json.asText?)
  some ⟨order⟩

end ExecutionOrder

structure TelemetryBoundary where
  itemInputType : String
  itemOutputType : String
  /-- The step that gives the items that leave the pipeline. -/
  producerStep : Option String := none
  /-- The step that takes the items that enter the pipeline. -/
  consumerStep : Option String := none
  sideEffectParents : Table String := ∅
  deriving DecidableEq

namespace TelemetryBoundary

def toJson (t : TelemetryBoundary) : Json := .record <| [
  ("item_input_type", .text t.itemInputType),
  ("item_output_type", .text t.itemOutputType)] ++
  Json.present "producer_step" (t.producerStep.map .text) ++
  Json.present "consumer_step" (t.consumerStep.map .text) ++
  [("side_effect_parents", t.sideEffectParents.toJson .text)]

def ofJson? (json : Json) : Option TelemetryBoundary := do
  let fields ← json.fields? .json 5
  let itemInputType ← fields.required 0 "item_input_type" Json.asText?
  let itemOutputType ← fields.required 1 "item_output_type" Json.asText?
  let producerStep ← fields.optional 2 "producer_step" Json.asText?
  let consumerStep ← fields.optional 3 "consumer_step" Json.asText?
  let sideEffectParents ← fields.withDefault 4 "side_effect_parents" (Table.ofJson? Json.asText?) ∅
  some { itemInputType, itemOutputType, producerStep, consumerStep, sideEffectParents }

end TelemetryBoundary

structure Artifacts where
  executionOrder : ExecutionOrder
  telemetryBoundary : TelemetryBoundary
  deriving DecidableEq

namespace Artifacts

def executionOrderFile : String := "execution-order.json"

def telemetryBoundaryFile : String := "telemetry-boundary.json"

def build (orchestrator : Option Orchestrator) (base : List String)
    (expansion : Order.Expansion) : Option Artifacts :=
  orchestrator.map fun o =>
    { executionOrder := ⟨expansion.order⟩
      telemetryBoundary := {
        itemInputType := o.inputType
        itemOutputType := o.outputType
        producerStep := base.getLast?
        consumerStep := base.head?
        sideEffectParents := expansion.parents } }

def toJson (a : Artifacts) : Json := .record [
  ("execution_order", a.executionOrder.toJson),
  ("telemetry_boundary", a.telemetryBoundary.toJson)]

def files (a : Artifacts) : List (String × String) := [
  (executionOrderFile, a.executionOrder.toJson.pretty),
  (telemetryBoundaryFile, a.telemetryBoundary.toJson.pretty)]

variable {m : Type → Type} [Monad m] [Host m]

/-- Writes files into a directory that is there. One that cannot be written is remarked on and does
not keep the rest from being written. -/
def writeFiles (dir : String) : List (String × String) → m (Outcome (List String))
  | [] => return { value := [] }
  | (name, text) :: rest => do
    let path := Path.join dir name
    let result ← Host.writeText path text
    let more ← writeFiles dir rest
    match result with
    | .ok () => return { more with value := path :: more.value }
    | .error e =>
      let remark := .warning Diagnostic.artifactWriteFailed path e.message
      return { more with diagnostics := remark :: more.diagnostics }

def write (a : Artifacts) (dir : String) : m (Outcome (List String)) := do
  match ← Host.makeDirectories dir with
  | .error e =>
    let remark := .warning Diagnostic.artifactWriteFailed dir
      ("cannot create output directory: " ++ e.message)
    return { value := [], diagnostics := [remark] }
  | .ok () => writeFiles dir a.files

end Artifacts

end PipelinePlan
