import PipelinePlan.Description.Topology
import PipelinePlan.Json.Table

namespace PipelinePlan

/-- Whether an aspect concerns all steps or only some. -/
inductive Scope where
  | global
  | steps
  deriving DecidableEq, Repr

def Scope.name : Scope → String
  | global => "GLOBAL"
  | steps => "STEPS"

def Scope.ofName? : String → Option Scope
  | "GLOBAL" => some global
  | "STEPS" => some steps
  | _ => none

inductive Position where
  | before
  | after
  deriving DecidableEq, Repr

def Position.name : Position → String
  | before => "BEFORE_STEP"
  | after => "AFTER_STEP"

def Position.ofName? : String → Option Position
  | "BEFORE_STEP" => some before
  | "AFTER_STEP" => some after
  | _ => none

/-- A concern that is not a step's own, such as persistence. -/
structure Aspect where
  enabled : Bool := true
  scope : Scope := .global
  position : Position := .after
  targetSteps : List String := []
  deriving DecidableEq, Repr

namespace Aspect

def beforeStep : Aspect := { position := .before }

def targeting (a : Aspect) (steps : List String) : Aspect :=
  { a with scope := .steps, targetSteps := steps }

def disabled (a : Aspect) : Aspect := { a with enabled := false }

def toJson (a : Aspect) : Json := .record [
  ("enabled", .bool a.enabled),
  ("scope", .text a.scope.name),
  ("position", .text a.position.name),
  ("target_steps", .texts a.targetSteps)]

def ofJson? (dialect : Json.Dialect) (json : Json) : Option Aspect := do
  let fields ← json.fields? dialect 4
  let enabled ← fields.withDefault 0 "enabled" Json.asBool? true
  let scope ← fields.withDefault 1 "scope" (Json.asNamed? dialect Scope.ofName?) .global
  let position ← fields.withDefault 2 "position" (Json.asNamed? dialect Position.ofName?) .after
  let targetSteps ← fields.withDefault 3 "target_steps" (Json.asList? Json.asText?) []
  some { enabled, scope, position, targetSteps }

end Aspect

/-- Asks for an orchestrator with a command line of its own. -/
structure Marker where
  name : String
  description : Option String := none
  version : Option String := none
  deriving DecidableEq, Repr

namespace Marker

def toJson (m : Marker) : Json := .record <|
  [("name", .text m.name)] ++
  Json.present "description" (m.description.map .text) ++
  Json.present "version" (m.version.map .text)

def ofJson? (dialect : Json.Dialect) (json : Json) : Option Marker := do
  let fields ← json.fields? dialect 3
  let name ← fields.required 0 "name" Json.asText?
  let description ← fields.optional 1 "description" Json.asText?
  let version ← fields.optional 2 "version" Json.asText?
  some { name, description, version }

end Marker

structure Description where
  baseSpace : String
  transport : Transport := .grpc
  steps : List Declaration := []
  topology : Topology := []
  aspects : Table Aspect := ∅
  stepConfig : Table StepConfig := ∅
  orchestrator : List Marker := []
  deriving DecidableEq

/-- The settings for a step: those under its name, or the first under a name with its token. -/
def stepConfigFor (configs : Table StepConfig) (step : String) : Option StepConfig :=
  match configs.find? step with
  | some config => some config
  | none =>
    (configs.entries.find? fun entry => Text.token entry.1 == Text.token step).map (·.2)

namespace Description

def toJson (d : Description) : Json := .record [
  ("base_namespace", .text d.baseSpace),
  ("transport", d.transport.toJson),
  ("steps", .list (d.steps.map Declaration.toJson)),
  ("topology", .list (d.topology.map TopologyEntry.toJson)),
  ("aspects", d.aspects.toJson Aspect.toJson),
  ("step_config", d.stepConfig.toJson StepConfig.toJson),
  ("orchestrator", .list (d.orchestrator.map Marker.toJson))]

def ofJson? (dialect : Json.Dialect) (json : Json) : Option Description := do
  let fields ← json.fields? dialect 7
  let baseSpace ← fields.required 0 "base_namespace" Json.asText?
  let transport ← fields.withDefault 1 "transport" (Transport.ofJson? dialect) .grpc
  let steps ← fields.withDefault 2 "steps" (Json.asList? (Declaration.ofJson? dialect)) []
  let topology ← fields.withDefault 3 "topology" (Json.asList? (TopologyEntry.ofJson? dialect)) []
  let aspects ← fields.withDefault 4 "aspects" (Table.ofJson? (Aspect.ofJson? dialect)) ∅
  let stepConfig ←
    fields.withDefault 5 "step_config" (Table.ofJson? (StepConfig.ofJson? dialect)) ∅
  let orchestrator ←
    fields.withDefault 6 "orchestrator" (Json.asList? (Marker.ofJson? dialect)) []
  some { baseSpace, transport, steps, topology, aspects, stepConfig, orchestrator }

end Description

end PipelinePlan
