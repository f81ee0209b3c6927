import PipelinePlan.Error
import PipelinePlan.Step.Basic

namespace PipelinePlan

structure Declaration where
  name : String := ""
  serviceName : Option String := none
  space : Option String := none
  inputType : Option String := none
  inputConverter : Option String := none
  outputType : Option String := none
  outputConverter : Option String := none
  kind : Option String := none
  grpcEnabled : Option Bool := none
  restEnabled : Option Bool := none
  dedicatedWorkerPool : Option Bool := none
  sideEffect : Bool := false
  parent : Option String := none
  role : Option String := none
  deriving DecidableEq, Repr

/-- Settings attached to a step from outside; what is set here wins over the declaration. -/
structure StepConfig where
  grpcEnabled : Option Bool := none
  restEnabled : Option Bool := none
  dedicatedWorkerPool : Option Bool := none
  role : Option String := none
  deriving DecidableEq, Repr

/-- The trimmed text, unless it is absent or blank. -/
def givenText (s : Option String) : Option String :=
  (s.map Text.trim).filter (!·.isEmpty)

namespace Declaration

/-- A declaration without a namespace gets the one of the pipeline. -/
def withSpace (d : Declaration) (space : String) : Declaration :=
  if (givenText d.space).isNone then { d with space := some space } else d

def shape? (step : String) (kind : Option String) : Except Error Shape :=
  match givenText kind with
  | none => .ok .unaryUnary
  | some token =>
    match Shape.ofToken? token with
    | some shape => .ok shape
    | none => .error (.unknownStepKind step token)

/-- The role of a step: the one that is named, or the usual one. -/
def role? (step : String) (named : Option String) (sideEffect grpc : Bool) : Except Error Role :=
  match givenText named with
  | some token =>
    match Role.ofToken? token with
    | some role => .ok role
    | none => .error (.unknownRole step token)
  | none =>
    .ok (if sideEffect then .pluginServer else if grpc then .pipelineServer else .restServer)

def toStep (d : Declaration) (config : Option StepConfig) : Except Error Step := do
  let name := Text.trim d.name
  if name.isEmpty then throw (.configuration "<unnamed>" "step name is empty")
  let serviceName := (givenText d.serviceName).getD (Naming.serviceOfStep name)
  let some space := givenText d.space | throw (.configuration name "no namespace declared")
  let shape ← shape? name d.kind
  let grpc := ((config.bind (·.grpcEnabled)).or d.grpcEnabled).getD true
  let rest := ((config.bind (·.restEnabled)).or d.restEnabled).getD false
  let dedicated := ((config.bind (·.dedicatedWorkerPool)).or d.dedicatedWorkerPool).getD false
  if !grpc && !rest then
    throw (.configuration name "neither gRPC nor REST generation is enabled")
  let role ← role? name ((config.bind (·.role)).or d.role) d.sideEffect grpc
  let parent := givenText d.parent
  if parent.isSome && !d.sideEffect then
    throw (.configuration name "only side-effect steps may declare a parent")
  return {
    name
    serviceName
    serviceSpace := space
    qualifiedService := Name.qualify space serviceName
    input := .ofDeclared d.inputType d.inputConverter
    output := .ofDeclared d.outputType d.outputConverter
    shape
    targets := { grpcService := grpc, clientStep := grpc, restResource := rest }
    execution := if dedicated then .workerPool else .default
    role
    sideEffect := d.sideEffect
    parent }

def toJson (d : Declaration) : Json := .record [
  ("name", .text d.name),
  ("service_name", .orNull (d.serviceName.map .text)),
  ("namespace", .orNull (d.space.map .text)),
  ("input_type", .orNull (d.inputType.map .text)),
  ("input_converter", .orNull (d.inputConverter.map .text)),
  ("output_type", .orNull (d.outputType.map .text)),
  ("output_converter", .orNull (d.outputConverter.map .text)),
  ("kind", .orNull (d.kind.map .text)),
  ("grpc_enabled", .orNull (d.grpcEnabled.map .bool)),
  ("rest_enabled", .orNull (d.restEnabled.map .bool)),
  ("dedicated_worker_pool", .orNull (d.dedicatedWorkerPool.map .bool)),
  ("side_effect", .bool d.sideEffect),
  ("parent", .orNull (d.parent.map .text)),
  ("role", .orNull (d.role.map .text))]

def ofJson? (dialect : Json.Dialect) (json : Json) : Option Declaration := do
  let fields ← json.fields? dialect 14
  let name ← fields.withDefault 0 "name" Json.asText? ""
  let serviceName ← fields.optional 1 "service_name" Json.asText?
  let space ← fields.optional 2 "namespace" Json.asText?
  let inputType ← fields.optional 3 "input_type" Json.asText?
  let inputConverter ← fields.optional 4 "input_converter" Json.asText?
  let outputType ← fields.optional 5 "output_type" Json.asText?
  let outputConverter ← fields.optional 6 "output_converter" Json.asText?
  let kind ← fields.optional 7 "kind" Json.asText?
  let grpcEnabled ← fields.optional 8 "grpc_enabled" Json.asBool?
  let restEnabled ← fields.optional 9 "rest_enabled" Json.asBool?
  let dedicatedWorkerPool ← fields.optional 10 "dedicated_worker_pool" Json.asBool?
  let sideEffect ← fields.withDefault 11 "side_effect" Json.asBool? false
  let parent ← fields.optional 12 "parent" Json.asText?
  let role ← fields.optional 13 "role" Json.asText?
  some { name, serviceName, space, inputType, inputConverter, outputType, outputConverter, kind,
         grpcEnabled, restEnabled, dedicatedWorkerPool, sideEffect, parent, role }

end Declaration

namespace StepConfig

def toJson (c : StepConfig) : Json := .record [
  ("grpc_enabled", .orNull (c.grpcEnabled.map .bool)),
  ("rest_enabled", .orNull (c.restEnabled.map .bool)),
  ("dedicated_worker_pool", .orNull (c.dedicatedWorkerPool.map .bool)),
  ("role", .orNull (c.role.map .text))]

def ofJson? (dialect : Json.Dialect) (json : Json) : Option StepConfig := do
  let fields ← json.fields? dialect 4
  let grpcEnabled ← fields.optional 0 "grpc_enabled" Json.asBool?
  let restEnabled ← fields.optional 1 "rest_enabled" Json.asBool?
  let dedicatedWorkerPool ← fields.optional 2 "dedicated_worker_pool" Json.asBool?
  let role ← fields.optional 3 "role" Json.asText?
  some { grpcEnabled, restEnabled, dedicatedWorkerPool, role }

end StepConfig

end PipelinePlan
