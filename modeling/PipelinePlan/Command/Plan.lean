import PipelinePlan.Command.Failure
import PipelinePlan.Compilation.Emission

namespace PipelinePlan.Command

structure PlannedStep where
  step : CompiledStep
  placement : Option Placement
  deriving DecidableEq, Repr

def PlannedStep.toJson (p : PlannedStep) : Json := .record <| [
  ("name", .text p.step.step.name),
  ("service", .text p.step.step.qualifiedService),
  ("shape", p.step.step.shape.toJson)] ++
  Json.present "schema_file" (p.step.binding.map fun b => .text b.file) ++
  Json.present "wire_types" (p.step.types.map GeneratedTypes.toJson) ++
  Json.present "placement" (p.placement.map Placement.toJson)

/-- The parts of a plan that have been handed over, and the file that it was written to. -/
structure PlanDraft where
  steps : List PlannedStep := []
  orchestrator : Option (Orchestrator × List String) := none
  written : Option String := none

namespace PlanDraft

def file : String := "plan.json"

def toJson (d : PlanDraft) (c : Compiled) : Json := .record <| [
  ("unit", .text c.name),
  ("steps", .list (d.steps.map PlannedStep.toJson))] ++
  Json.present "orchestrator" (d.orchestrator.map fun (o, _) => o.toJson) ++ [
  ("order", .texts ((d.orchestrator.map (·.2)).getD c.order))]

variable {m : Type → Type} [Monad m] [Host m]

def write (d : PlanDraft) (dir : String) (c : Compiled) : Run m String := do
  orFail (.createOutput dir) (Host.makeDirectories dir)
  let path := Path.join dir file
  orFail (.writeOutput path) (Host.writeText path (d.toJson c).pretty)
  return path

def emitter (dir : String) : Emitter (StateT PlanDraft (Run m)) where
  step step placement := modify fun d => { d with steps := d.steps ++ [⟨step, placement⟩] }
  orchestrator o order := modify fun d => { d with orchestrator := some (o, order) }
  finish c := do
    let path ← liftM ((← get).write (m := m) dir c)
    set ({ written := some path } : PlanDraft)

end PlanDraft

end PipelinePlan.Command
