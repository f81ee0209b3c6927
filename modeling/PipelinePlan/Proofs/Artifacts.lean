import PipelinePlan.Artifacts
import PipelinePlan.Proofs.Json.Decoding
import PipelinePlan.Proofs.Json.RoundTrip

namespace PipelinePlan

theorem ExecutionOrder.ofJson?_toJson (e : ExecutionOrder) : ofJson? e.toJson = some e := by
  have hfield : Json.member? "order" [("order", .texts e.order)] = some (.texts e.order) := rfl
  simp only [toJson, ofJson?, Json.fields?, Json.Fields.required, Json.Fields.find?, hfield,
    Option.bind_eq_bind, Option.bind_some, Json.asList?_texts]

theorem TelemetryBoundary.ofJson?_toJson (t : TelemetryBoundary) : ofJson? t.toJson = some t := by
  obtain ⟨itemInputType, itemOutputType, producerStep, consumerStep, sideEffectParents⟩ := t
  have hparents : Table.ofJson? Json.asText? (sideEffectParents.toJson .text) =
      some sideEffectParents := Table.ofJson?_toJson Json.asText?_text _
  -- A step that is absent is left out of the record, and a member left out is read as absent.
  cases producerStep <;> cases consumerStep <;>
    simp [toJson, ofJson?, Json.fields?, Json.Fields.required, Json.Fields.optional,
      Json.Fields.withDefault, Json.Fields.find?, Json.member?, Json.present, Json.asOption?,
      hparents]

namespace Artifacts

def ofFiles? (files : List (String × String)) : Option Artifacts := do
  let order ← files.lookup executionOrderFile
  let boundary ← files.lookup telemetryBoundaryFile
  let executionOrder ← (Json.parse? order).bind ExecutionOrder.ofJson?
  let telemetryBoundary ← (Json.parse? boundary).bind TelemetryBoundary.ofJson?
  some { executionOrder, telemetryBoundary }

/-- Reading the files of a build gives its artifacts. -/
theorem ofFiles?_files (a : Artifacts) : ofFiles? a.files = some a := by
  have horder : a.files.lookup executionOrderFile = some a.executionOrder.toJson.pretty := rfl
  have hboundary : a.files.lookup telemetryBoundaryFile =
      some a.telemetryBoundary.toJson.pretty := rfl
  simp only [ofFiles?, horder, hboundary, Option.bind_eq_bind, Option.bind_some,
    Json.parse?_pretty, ExecutionOrder.ofJson?_toJson, TelemetryBoundary.ofJson?_toJson]

end Artifacts

end PipelinePlan
