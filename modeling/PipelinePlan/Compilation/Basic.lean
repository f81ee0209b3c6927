import PipelinePlan.Artifacts
import PipelinePlan.GeneratedTypes
import PipelinePlan.Order.Base
import PipelinePlan.Placement.Basic

namespace PipelinePlan

structure Source where
  name : String
  description : Description
  descriptors : List Schema.FileDescriptor := []
  overrides : Overrides := {}

/-- A step with its binding, which steps that are reached by REST only do not have. -/
structure CompiledStep where
  step : Step
  binding : Option Binding := none
  types : Option GeneratedTypes := none
  deriving DecidableEq, Repr

structure StepFailure where
  step : String
  error : Error
  deriving DecidableEq, Repr

structure Compiled where
  name : String
  transport : Transport
  steps : List CompiledStep
  failures : List StepFailure
  orchestrator : Option Orchestrator
  baseOrder : List String
  expansion : Order.Expansion
  placements : List Placement
  artifacts : Option Artifacts
  diagnostics : Diagnostics

structure Summary where
  name : String
  transport : Transport
  schemaFiles : Option Nat
  schemaPasses : Option Nat
  stepsDeclared : Nat
  stepsCompiled : Nat
  stepsFailed : Nat
  syntheticSteps : Nat
  orderLength : Nat
  orchestrator : Bool
  warnings : Nat
  deriving DecidableEq, Repr

namespace Compilation

def extract (d : Description) (declaration : Declaration) : Except Error Step :=
  (declaration.withSpace d.baseSpace).toStep (stepConfigFor d.stepConfig declaration.name)

def extractAll (d : Description) : List Declaration → List Step × List StepFailure
  | [] => ([], [])
  | declaration :: rest =>
    let (steps, failures) := extractAll d rest
    match extract d declaration with
    | .ok step => (step :: steps, failures)
    | .error e => (steps, ⟨declaration.name, e⟩ :: failures)

/-- Binds a step, if it is one to bind. -/
def bindStep (pool : Except Schema.Error Schema.Pool) (step : Step) :
    Except Error (Outcome CompiledStep) :=
  if !step.targets.has .grpcService then .ok ⟨{ step := step }, []⟩
  else match pool with
    | .error e => .error (.schema e)
    | .ok pool => do
      let binding ← Binding.resolve step pool
      let types := GeneratedTypes.resolve binding.value pool
      return ⟨{ step, binding := some binding.value, types := some types.value },
        binding.diagnostics ++ types.diagnostics⟩

structure Bound where
  steps : List CompiledStep := []
  failures : List StepFailure := []
  diagnostics : Diagnostics := []

def bindAll (pool : Except Schema.Error Schema.Pool) : List Step → Bound
  | [] => {}
  | step :: rest =>
    let bound := bindAll pool rest
    match bindStep pool step with
    | .ok outcome =>
      { bound with
        steps := outcome.value :: bound.steps
        diagnostics := outcome.diagnostics ++ bound.diagnostics }
    | .error e => { bound with failures := ⟨step.name, e⟩ :: bound.failures }

/-- The orchestrator of a description. Without a topology there is none. -/
def orchestrator (d : Description) (steps : List Step) : Except Error (Option Orchestrator) :=
  if d.topology.isEmpty then (Orchestrator.marker? d.orchestrator).map fun _ => none
  else Orchestrator.derive d.topology d.baseSpace d.transport d.orchestrator steps

def expander (d : Description) (steps : List Step) (knows : Option (String → Bool)) :
    Order.Expander where
  aspects := d.aspects
  contracts := Order.contracts steps d.transport
  topology := d.topology
  baseSpace := d.baseSpace
  transport := d.transport
  knows := knows

end Compilation

open Compilation in
/-- Compiles a pipeline. A step that cannot be used is reported and left out; only what concerns the
pipeline as a whole makes a compilation fail. `knows` tells whether an identifier of a side effect
exists. -/
def Source.compileWith (source : Source) (knows : Option (String → Bool)) :
    Except Error (Compiled × Summary) := do
  let d := source.description
  let (steps, unusable) := extractAll d d.steps
  let pool := Schema.Pool.build source.descriptors
  let bound := bindAll pool steps
  let failures := unusable ++ bound.failures
  let orchestrator ← orchestrator d steps
  let base := Order.base d.topology steps d.transport
  let expanded := (expander d steps knows).run base.value
  let expansion := expanded.value
  let placements ← Placement.resolve expansion steps d.transport source.overrides
  let diagnostics := bound.diagnostics ++ base.diagnostics ++ expanded.diagnostics
  let compiled : Compiled := {
    name := source.name
    transport := d.transport
    steps := bound.steps
    failures
    orchestrator
    baseOrder := base.value
    expansion
    placements
    artifacts := Artifacts.build orchestrator base.value expansion
    diagnostics }
  let summary : Summary := {
    name := source.name
    transport := d.transport
    schemaFiles := pool.toOption.map (·.files.length)
    schemaPasses := pool.toOption.map (·.passes)
    stepsDeclared := d.steps.length
    stepsCompiled := bound.steps.length
    stepsFailed := failures.length
    syntheticSteps := expansion.synthetic.length
    orderLength := expansion.order.length
    orchestrator := orchestrator.isSome
    warnings := diagnostics.warnings }
  return (compiled, summary)

def Source.compile (source : Source) : Except Error (Compiled × Summary) := source.compileWith none

namespace CompiledStep

def toJson (s : CompiledStep) : Json := .record <|
  [("model", s.step.toJson)] ++
  Json.present "binding" (s.binding.map Binding.toJson) ++
  Json.present "wire_types" (s.types.map GeneratedTypes.toJson)

end CompiledStep

namespace StepFailure

def toJson (f : StepFailure) : Json := .record [
  ("step", .text f.step),
  ("kind", .text f.error.kind.name),
  ("message", .text f.error.message)]

end StepFailure

namespace Compiled

def isSuccess (c : Compiled) : Bool := c.failures.isEmpty

def step? (c : Compiled) (name : String) : Option CompiledStep :=
  c.steps.find? (·.step.name == name)

def failure? (c : Compiled) (name : String) : Option StepFailure :=
  c.failures.find? (·.step == name)

def placement? (c : Compiled) (identifier : String) : Option Placement :=
  c.placements.find? (·.step == identifier)

def order (c : Compiled) : List String := c.expansion.order

def toJson (c : Compiled) : Json := .record <| [
  ("unit", .text c.name),
  ("transport", c.transport.toJson),
  ("steps", .list (c.steps.map CompiledStep.toJson)),
  ("failures", .list (c.failures.map StepFailure.toJson))] ++
  Json.present "orchestrator" (c.orchestrator.map Orchestrator.toJson) ++ [
  ("base_order", .texts c.baseOrder),
  ("order", .texts c.order),
  ("synthetic", .list (c.expansion.synthetic.map Order.SyntheticStep.toJson)),
  ("placements", .list (c.placements.map Placement.toJson))] ++
  Json.present "artifacts" (c.artifacts.map Artifacts.toJson) ++ [
  ("diagnostics", c.diagnostics.toJson)]

variable {m : Type → Type} [Monad m] [Host m]

/-- Writes the artifacts, if there are any. What goes wrong is remarked on in the result. -/
def writeArtifacts (c : Compiled) (dir : String) : m (Compiled × List String) := do
  match c.artifacts with
  | none => return (c, [])
  | some artifacts =>
    let written ← artifacts.write dir
    return ({ c with diagnostics := c.diagnostics ++ written.diagnostics }, written.value)

end Compiled

namespace Summary

def isClean (s : Summary) : Bool := s.stepsFailed == 0

def toJson (s : Summary) : Json := .record [
  ("unit", .text s.name),
  ("transport", s.transport.toJson),
  ("schema_files", .orNull (s.schemaFiles.map .nat)),
  ("schema_passes", .orNull (s.schemaPasses.map .nat)),
  ("steps_declared", .nat s.stepsDeclared),
  ("steps_compiled", .nat s.stepsCompiled),
  ("steps_failed", .nat s.stepsFailed),
  ("synthetic_steps", .nat s.syntheticSteps),
  ("order_length", .nat s.orderLength),
  ("orchestrator", .bool s.orchestrator),
  ("warnings", .nat s.warnings)]

end Summary

end PipelinePlan
