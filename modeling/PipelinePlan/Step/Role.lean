import PipelinePlan.Json.Basic
import PipelinePlan.Text.Words

namespace PipelinePlan

/-- The kinds of adapters that may be generated for a step. -/
inductive Target where
  | grpcService
  | clientStep
  | restResource
  deriving DecidableEq, Repr

namespace Target

def name : Target → String
  | grpcService => "GRPC_SERVICE"
  | clientStep => "CLIENT_STEP"
  | restResource => "REST_RESOURCE"

def ofName? : String → Option Target
  | "GRPC_SERVICE" => some grpcService
  | "CLIENT_STEP" => some clientStep
  | "REST_RESOURCE" => some restResource
  | _ => none

end Target

structure Targets where
  grpcService : Bool := false
  clientStep : Bool := false
  restResource : Bool := false
  deriving DecidableEq, Repr

namespace Targets

def has (ts : Targets) : Target → Bool
  | .grpcService => ts.grpcService
  | .clientStep => ts.clientStep
  | .restResource => ts.restResource

def toList (ts : Targets) : List Target :=
  [Target.grpcService, .clientStep, .restResource].filter ts.has

def ofList (list : List Target) : Targets where
  grpcService := list.contains .grpcService
  clientStep := list.contains .clientStep
  restResource := list.contains .restResource

/-- The targets come in a fixed order. -/
def toJson (ts : Targets) : Json := .texts (ts.toList.map Target.name)

def ofJson? (json : Json) : Option Targets :=
  (Json.asList? (Json.asNamed? .json Target.ofName?) json).map ofList

end Targets

/-- Whether a step has a pool of workers of its own. -/
inductive Execution where
  | default
  | workerPool
  deriving DecidableEq, Repr

namespace Execution

def name : Execution → String
  | default => "DEFAULT"
  | workerPool => "WORKER_POOL"

def ofName? : String → Option Execution
  | "DEFAULT" => some default
  | "WORKER_POOL" => some workerPool
  | _ => none

end Execution

inductive Role where
  | pipelineServer
  | orchestratorClient
  | pluginServer
  | pluginClient
  | restServer
  deriving DecidableEq, Repr

namespace Role

/-- A role from its name. Case and punctuation do not matter. -/
def ofToken? (s : String) : Option Role :=
  match Text.token s with
  | "pipelineserver" | "server" => some pipelineServer
  | "orchestratorclient" | "orchestrator" => some orchestratorClient
  | "pluginserver" | "plugin" => some pluginServer
  | "pluginclient" => some pluginClient
  | "restserver" | "rest" => some restServer
  | _ => none

def name : Role → String
  | pipelineServer => "PIPELINE_SERVER"
  | orchestratorClient => "ORCHESTRATOR_CLIENT"
  | pluginServer => "PLUGIN_SERVER"
  | pluginClient => "PLUGIN_CLIENT"
  | restServer => "REST_SERVER"

def ofName? : String → Option Role
  | "PIPELINE_SERVER" => some pipelineServer
  | "ORCHESTRATOR_CLIENT" => some orchestratorClient
  | "PLUGIN_SERVER" => some pluginServer
  | "PLUGIN_CLIENT" => some pluginClient
  | "REST_SERVER" => some restServer
  | _ => none

def clientMark : Role → String
  | pipelineServer => "pipeline"
  | orchestratorClient => "orchestrator"
  | pluginServer | pluginClient => "plugin"
  | restServer => "rest"

end Role

end PipelinePlan
