import PipelinePlan.Naming
import PipelinePlan.Step.Role
import PipelinePlan.Step.Shape
import PipelinePlan.Text.Blank

namespace PipelinePlan

/-- How a type on the wire relates to a type of the domain. -/
structure TypeMapping where
  domainType : Option String := none
  converter : Option String := none
  enabled : Bool := false
  deriving DecidableEq, Repr

namespace TypeMapping

def domainOnly (type : String) : TypeMapping := ⟨some type, none, false⟩

/-- The mapping for a declared type and converter. Without a type there is none, and without a
converter the type is known but not converted. -/
def ofDeclared (type converter : Option String) : TypeMapping :=
  match type.filter (!Name.isVoid ·) with
  | none => {}
  | some type =>
    match converter.filter (!Name.isVoid ·) with
    | none => domainOnly (Text.trim type)
    | some converter => ⟨some (Text.trim type), some (Text.trim converter), true⟩

def toJson (m : TypeMapping) : Json := .record <|
  Json.present "domain_type" (m.domainType.map .text) ++
  Json.present "converter" (m.converter.map .text) ++
  [("enabled", .bool m.enabled)]

def ofJson? (json : Json) : Option TypeMapping := do
  let fields ← json.fields? .json 3
  let domainType ← fields.optional 0 "domain_type" Json.asText?
  let converter ← fields.optional 1 "converter" Json.asText?
  let enabled ← fields.required 2 "enabled" Json.asBool?
  some { domainType, converter, enabled }

end TypeMapping

structure Step where
  name : String
  serviceName : String
  serviceSpace : String
  /-- The service name inside its namespace. -/
  qualifiedService : String
  input : TypeMapping
  output : TypeMapping
  shape : Shape
  targets : Targets
  execution : Execution
  role : Role
  sideEffect : Bool := false
  /-- The step that a side effect watches. -/
  parent : Option String := none
  deriving DecidableEq, Repr

namespace Step

def client (step : Step) (transport : Transport) : String :=
  Naming.client step.serviceSpace step.serviceName transport

def toJson (s : Step) : Json := .record <| [
  ("name", .text s.name),
  ("service_name", .text s.serviceName),
  ("service_namespace", .text s.serviceSpace),
  ("qualified_service", .text s.qualifiedService),
  ("input", s.input.toJson),
  ("output", s.output.toJson),
  ("streaming", s.shape.toJson),
  ("targets", s.targets.toJson),
  ("execution", .text s.execution.name),
  ("role", .text s.role.name),
  ("side_effect", .bool s.sideEffect)] ++
  Json.present "parent" (s.parent.map .text)

def ofJson? (json : Json) : Option Step := do
  let fields ← json.fields? .json 12
  let name ← fields.required 0 "name" Json.asText?
  let serviceName ← fields.required 1 "service_name" Json.asText?
  let serviceSpace ← fields.required 2 "service_namespace" Json.asText?
  let qualifiedService ← fields.required 3 "qualified_service" Json.asText?
  let input ← fields.required 4 "input" TypeMapping.ofJson?
  let output ← fields.required 5 "output" TypeMapping.ofJson?
  let shape ← fields.required 6 "streaming" Shape.ofJson?
  let targets ← fields.required 7 "targets" Targets.ofJson?
  let execution ← fields.required 8 "execution" (Json.asNamed? .json Execution.ofName?)
  let role ← fields.required 9 "role" (Json.asNamed? .json Role.ofName?)
  let sideEffect ← fields.withDefault 10 "side_effect" Json.asBool? false
  let parent ← fields.optional 11 "parent" Json.asText?
  some { name, serviceName, serviceSpace, qualifiedService, input, output, shape, targets,
         execution, role, sideEffect, parent }

end Step

end PipelinePlan
