import PipelinePlan.Compilation.Basic

namespace PipelinePlan

/-- A consumer of compiled pipelines. Its calls have their effects, failures included, in `m`. -/
structure Emitter (m : Type → Type) where
  step : CompiledStep → Option Placement → m Unit
  orchestrator : Orchestrator → List String → m Unit
  finish : Compiled → m Unit

variable {m : Type → Type} [Monad m]

/-- Hands over one step with the placement of its client, if the order has it. -/
def Emitter.emitStep (e : Emitter m) (c : Compiled) (s : CompiledStep) : m Unit :=
  e.step s (c.placement? (s.step.client c.transport))

def Emitter.emitOrchestrator (e : Emitter m) (c : Compiled) : m Unit :=
  match c.orchestrator with
  | some orchestrator => e.orchestrator orchestrator c.order
  | none => pure ()

/-- Hands over the steps, the orchestrator and at last the whole; gives the number of steps. -/
def Compiled.emit (c : Compiled) (e : Emitter m) : m Nat := do
  c.steps.forM (e.emitStep c)
  e.emitOrchestrator c
  e.finish c
  return c.steps.length

end PipelinePlan
