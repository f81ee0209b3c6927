import PipelinePlan.Description.Basic
import PipelinePlan.Proofs.Json.Decoding
import PipelinePlan.Proofs.Json.RoundTrip

namespace PipelinePlan

open Json.Fields

theorem Transport.ofName?_name (t : Transport) : ofName? t.name = some t := by
  cases t <;> rfl

theorem Scope.ofName?_name (s : Scope) : ofName? s.name = some s := by
  cases s <;> rfl

theorem Position.ofName?_name (p : Position) : ofName? p.name = some p := by
  cases p <;> rfl

theorem Shape.ofName?_name (s : Shape) : ofName? s.name = some s := by
  cases s <;> rfl

theorem Target.ofName?_name (t : Target) : ofName? t.name = some t := by
  cases t <;> rfl

theorem Execution.ofName?_name (e : Execution) : ofName? e.name = some e := by
  cases e <;> rfl

theorem Role.ofName?_name (r : Role) : ofName? r.name = some r := by
  cases r <;> rfl

section Descriptions

variable (dialect : Json.Dialect)

theorem Declaration.ofJson?_toJson (d : Declaration) : ofJson? dialect d.toJson = some d := by
  refine reads _ rfl ?_
  refine reads d.name rfl ?_
  refine reads d.serviceName (optional_text rfl) ?_
  refine reads d.space (optional_text rfl) ?_
  refine reads d.inputType (optional_text rfl) ?_
  refine reads d.inputConverter (optional_text rfl) ?_
  refine reads d.outputType (optional_text rfl) ?_
  refine reads d.outputConverter (optional_text rfl) ?_
  refine reads d.kind (optional_text rfl) ?_
  refine reads d.grpcEnabled (optional_bool rfl) ?_
  refine reads d.restEnabled (optional_bool rfl) ?_
  refine reads d.dedicatedWorkerPool (optional_bool rfl) ?_
  refine reads d.sideEffect rfl ?_
  refine reads d.parent (optional_text rfl) ?_
  exact reads d.role (optional_text rfl) rfl

theorem StepConfig.ofJson?_toJson (c : StepConfig) : ofJson? dialect c.toJson = some c := by
  refine reads _ rfl ?_
  refine reads c.grpcEnabled (optional_bool rfl) ?_
  refine reads c.restEnabled (optional_bool rfl) ?_
  refine reads c.dedicatedWorkerPool (optional_bool rfl) ?_
  exact reads c.role (optional_text rfl) rfl

theorem Aspect.ofJson?_toJson (a : Aspect) : ofJson? dialect a.toJson = some a := by
  refine reads _ rfl ?_
  refine reads a.enabled rfl ?_
  refine reads a.scope (Scope.ofName?_name _) ?_
  refine reads a.position (Position.ofName?_name _) ?_
  exact reads a.targetSteps (Json.asList?_texts _) rfl

theorem TopologyEntry.ofJson?_toJson (e : TopologyEntry) : ofJson? dialect e.toJson = some e := by
  obtain ⟨name, inputType, outputType, cardinality⟩ := e
  cases cardinality <;> rfl

theorem Marker.ofJson?_toJson (m : Marker) : ofJson? dialect m.toJson = some m := by
  obtain ⟨name, description, version⟩ := m
  cases description <;> cases version <;> rfl

theorem Description.ofJson?_toJson (d : Description) : ofJson? dialect d.toJson = some d := by
  refine reads _ rfl ?_
  refine reads d.baseSpace rfl ?_
  refine reads d.transport (Transport.ofName?_name _) ?_
  refine reads d.steps (Json.asList?_map (Declaration.ofJson?_toJson dialect) _) ?_
  refine reads d.topology (Json.asList?_map (TopologyEntry.ofJson?_toJson dialect) _) ?_
  refine reads d.aspects (Table.ofJson?_toJson (Aspect.ofJson?_toJson dialect) _) ?_
  refine reads d.stepConfig (Table.ofJson?_toJson (StepConfig.ofJson?_toJson dialect) _) ?_
  exact reads d.orchestrator (Json.asList?_map (Marker.ofJson?_toJson dialect) _) rfl

end Descriptions

theorem Targets.ofList_toList (ts : Targets) : ofList ts.toList = ts := by
  obtain ⟨grpcService, clientStep, restResource⟩ := ts
  cases grpcService <;> cases clientStep <;> cases restResource <;> rfl

theorem Targets.ofJson?_toJson (ts : Targets) : ofJson? ts.toJson = some ts := by
  have hlist : Json.asList? (Json.asNamed? .json Target.ofName?)
      (.list (ts.toList.map fun t => .text t.name)) = some ts.toList :=
    Json.asList?_map Target.ofName?_name ts.toList
  rw [toJson, Json.texts, List.map_map, ofJson?, Function.comp_def, hlist, Option.map_some,
    ofList_toList]

theorem TypeMapping.ofJson?_toJson (m : TypeMapping) : ofJson? m.toJson = some m := by
  obtain ⟨domainType, converter, enabled⟩ := m
  cases domainType <;> cases converter <;> rfl

theorem Step.ofJson?_toJson (s : Step) : ofJson? s.toJson = some s := by
  obtain ⟨name, serviceName, serviceSpace, qualifiedService, input, output, shape, targets,
    execution, role, sideEffect, parent⟩ := s
  cases parent
  all_goals
    refine reads _ rfl ?_
    refine reads name rfl ?_
    refine reads serviceName rfl ?_
    refine reads serviceSpace rfl ?_
    refine reads qualifiedService rfl ?_
    refine reads input (TypeMapping.ofJson?_toJson _) ?_
    refine reads output (TypeMapping.ofJson?_toJson _) ?_
    refine reads shape (Shape.ofName?_name _) ?_
    refine reads targets (Targets.ofJson?_toJson _) ?_
    refine reads execution (Execution.ofName?_name _) ?_
    refine reads role (Role.ofName?_name _) ?_
    exact reads sideEffect rfl rfl

/-- Every description and every step is read back from its JSON, as a value and as a text, and
reading what was written for a description gives what was read before. -/
theorem descriptions_and_steps_read_back :
    (∀ d : Description, Description.ofJson? .json d.toJson = some d ∧
      (Json.parse? d.toJson.pretty).bind (Description.ofJson? .json) = some d) ∧
    (∀ s : Step, Step.ofJson? s.toJson = some s ∧
      (Json.parse? s.toJson.pretty).bind Step.ofJson? = some s) ∧
    ∀ json : Json, ((Description.ofJson? .json json).map Description.toJson).bind
      (Description.ofJson? .json) = Description.ofJson? .json json := by
  refine ⟨fun d => ?_, fun s => ?_, fun json => ?_⟩
  · rw [Json.parse?_pretty]
    exact ⟨Description.ofJson?_toJson .json d, Description.ofJson?_toJson .json d⟩
  · rw [Json.parse?_pretty]
    exact ⟨Step.ofJson?_toJson s, Step.ofJson?_toJson s⟩
  · cases Description.ofJson? .json json with
    | none => rfl
    | some d => exact Description.ofJson?_toJson .json d

end PipelinePlan
