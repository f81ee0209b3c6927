import PipelinePlan.Diagnostic
import PipelinePlan.Error
import PipelinePlan.Schema.Suggestion
import PipelinePlan.Step.Basic

namespace PipelinePlan

structure Binding where
  step : Step
  /-- The schema file that declares the service. -/
  file : String
  service : Schema.Service
  method : Schema.Method
  deriving DecidableEq, Repr

namespace Binding

def service? (step : Step) (pool : Schema.Pool) : Except Error (Schema.File × Schema.Service) :=
  match pool.servicesNamed step.serviceName with
  | [] =>
    .error (.serviceNotFound step.name step.serviceName (pool.suggestServices step.serviceName))
  | [found] => .ok found
  | many => .error (.duplicateService step.name step.serviceName (many.map (·.1.name)))

def method? (step : Step) (file : Schema.File) (service : Schema.Service) :
    Except Error Schema.Method :=
  match service.methodsNamed Naming.remoteMethod with
  | [] => .error (.methodNotFound step.name service.name file.name)
  | [found] => .ok found
  | many => .error (.duplicateMethod step.name service.name file.name many.length)

/-- A remark on the methods that are not bound, if there are any. -/
def extraMethods (step : Step) (service : Schema.Service) : Diagnostics :=
  let extra := (service.methods.filter (·.name != Naming.remoteMethod)).map (·.name)
  if extra.isEmpty then []
  else
    let names := ", ".intercalate extra
    [.warning Diagnostic.extraMethod service.name
      s!"step '{step.name}': only {Naming.remoteMethod} is bound, ignoring {names}"]

/-- Binds a step to the one service with its service name and to the one method of it that is called
remotely. Other methods of the service are only remarked on. -/
def resolve (step : Step) (pool : Schema.Pool) : Except Error (Outcome Binding) := do
  if !Text.startsWith Naming.serviceMark step.serviceName then
    throw (.invalidServiceName step.name step.serviceName)
  let (file, service) ← service? step pool
  let method ← method? step file service
  if (pool.owner? method.inputType).isNone then
    throw (.unresolvedMessage step.name method.inputType)
  if (pool.owner? method.outputType).isNone then
    throw (.unresolvedMessage step.name method.outputType)
  let actual := Shape.ofFlags method.clientStreaming method.serverStreaming
  if actual != step.shape then
    throw (.shapeMismatch step.name service.name method.name step.shape actual)
  return ⟨⟨step, file.name, service, method⟩, extraMethods step service⟩

def resolveIn (step : Step) (descriptors : List Schema.FileDescriptor) :
    Except Error (Outcome Binding) :=
  match Schema.Pool.build descriptors with
  | .error e => .error (.schema e)
  | .ok pool => resolve step pool

def toJson (b : Binding) : Json := .record [
  ("model", b.step.toJson),
  ("file", .text b.file),
  ("service", b.service.toJson),
  ("method", b.method.toJson)]

end Binding

end PipelinePlan
