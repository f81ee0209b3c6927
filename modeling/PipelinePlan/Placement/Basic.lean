import PipelinePlan.Order.Expansion
import PipelinePlan.Placement.Overrides

namespace PipelinePlan

structure Placement where
  /-- The identifier in the order. -/
  step : String
  clientName : String
  module : String
  host : String
  port : UInt16
  tlsName : Option String := none
  deriving DecidableEq, Repr

namespace Placement

def toJson (p : Placement) : Json := .record <| [
  ("step", .text p.step),
  ("client_name", .text p.clientName),
  ("module", .text p.module),
  ("host", .text p.host),
  ("port", .nat p.port.toNat)] ++
  Json.present "tls_configuration_name" (p.tlsName.map .text)

def defaultHost : String := "localhost"

/-- The override for a step, under its name, its service or what its service is about. -/
def stepOverride? (overrides : Overrides) (step : Step) : Option String :=
  [step.name, step.serviceName, Naming.serviceBase step.serviceName].findSome? fun name =>
    overrides.stepModules.find? (Text.token name)

def assignSynthetic (overrides : Overrides) (s : Order.SyntheticStep) : String × String :=
  (Naming.clientName "plugin" (Naming.sideEffectName s.aspect s.type),
    (overrides.aspectModules.find? (Text.token s.aspect)).getD
      (Naming.sideEffectModule s.aspect s.type))

def stepOf? (steps : List Step) (transport : Transport) (identifier : String) : Option Step :=
  steps.find? fun step => step.client transport == identifier

def assignStep (overrides : Overrides) (steps : List Step) (transport : Transport)
    (identifier : String) : String × String :=
  let step := stepOf? steps transport identifier
  let role := (step.map (·.role)).getD .pipelineServer
  let service := (step.map (·.serviceName)).getD
    (Text.dropSuffix transport.adapterSuffix (Name.simple identifier))
  let base := Naming.serviceBase service
  let module := ((step.bind (stepOverride? overrides)).or
    (overrides.stepModules.find? (Text.token base))).getD (Naming.stepModule service)
  (Naming.clientName role.clientMark base, module)

structure Assignment where
  step : String
  clientName : String
  module : String
  deriving DecidableEq, Repr

def assign (overrides : Overrides) (steps : List Step) (transport : Transport)
    (synthetic : List Order.SyntheticStep) (identifier : String) : Assignment :=
  let (clientName, module) := match synthetic.find? (·.identifier == identifier) with
    | some s => assignSynthetic overrides s
    | none => assignStep overrides steps transport identifier
  ⟨identifier, clientName, module⟩

/-- Numbers the modules that are needed after those that have a number. -/
def numberModules (known : List String) : List Assignment → List String
  | [] => known
  | a :: rest =>
    numberModules (if known.contains a.module then known else known ++ [a.module]) rest

/-- The port of the module at a position, unless that is past the last port. -/
def defaultPort (basePort : UInt16) (position : Nat) (module : String) : Except Error UInt16 :=
  let port := basePort.toNat + position + 1
  if port < 65536 then .ok (UInt16.ofNat port)
  else .error (.invalidModuleConfig Overrides.basePortKey
    s!"base port {basePort.toNat} leaves no default port for module '{module}' (index {position})")

def locate (overrides : Overrides) (modules : List String) (a : Assignment) :
    Except Error Placement := do
  let declared := overrides.module? a.module
  let port ← match declared.bind (·.port) with
    | some port => .ok port
    | none => defaultPort overrides.basePort (modules.idxOf a.module) a.module
  return {
    step := a.step
    clientName := a.clientName
    module := a.module
    host := (declared.bind (·.host)).getD defaultHost
    port
    tlsName := overrides.tlsName }

def resolve (expansion : Order.Expansion) (steps : List Step) (transport : Transport)
    (overrides : Overrides) : Except Error (List Placement) :=
  let assignments := expansion.order.map (assign overrides steps transport expansion.synthetic)
  let modules := numberModules (overrides.modules.map (·.name)) assignments
  assignments.mapM (locate overrides modules)

end Placement

end PipelinePlan
