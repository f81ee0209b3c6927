import PipelinePlan.Compilation.Basic

namespace PipelinePlan.Command.Report

def step (message : String) : String := "→ " ++ message

def success (message : String) : String := "✓ " ++ message

def failure (message : String) : String := "✗ " ++ message

def warning (message : String) : String := "! " ++ message

/-- A heading stands under an empty line and over a rule. -/
def heading (title : String) : List String :=
  ["", title, String.ofList (List.replicate 50 '─')]

def diagnostic (d : Diagnostic) : String :=
  let line := s!"[{d.code}] {d.subject}: {d.message}"
  match d.severity with
  | .warning => warning line
  | .info => "  " ++ line

def diagnostics (ds : Diagnostics) : List String :=
  if ds.isEmpty then [] else heading "Diagnostics" ++ ds.map diagnostic

def compiledStep (s : CompiledStep) : String :=
  let file := (s.binding.map (·.file)).getD "(rest only)"
  s!"  ✓ {s.step.name} {s.step.qualifiedService} ({s.step.shape.label}, {file})"

def stepFailure (f : StepFailure) : String := s!"  ✗ {f.step} {f.error.message}"

def steps (c : Compiled) : List String :=
  heading "Steps" ++ c.steps.map compiledStep ++ c.failures.map stepFailure

def written (paths : List String) : List String :=
  if paths.isEmpty then [] else heading "Outputs" ++ paths.map ("  • " ++ ·)

def compiled (c : Compiled) (paths : List String) : List String :=
  [step ("Compiled " ++ c.name)] ++ steps c ++ diagnostics c.diagnostics ++ written paths ++
  ["", if c.isSuccess then
      success s!"{c.steps.length} step(s) compiled, {c.order.length} in execution order"
    else warning s!"{c.steps.length} step(s) compiled, {c.failures.length} failed"]

def checked (c : Compiled) : List String :=
  [step ("Checking " ++ c.name)] ++ steps c ++ diagnostics c.diagnostics ++
  ["", if c.isSuccess then success s!"All {c.steps.length} step(s) resolved"
    else failure
      s!"{c.failures.length} of {c.failures.length + c.steps.length} step(s) failed"]

def checkedJson (c : Compiled) : Json := .record [
  ("unit", .text c.name),
  ("ok", .bool c.isSuccess),
  ("compiled", .texts (c.steps.map (·.step.name))),
  ("failures", .list (c.failures.map StepFailure.toJson)),
  ("warnings", .nat c.diagnostics.warnings)]

structure OrderEntry where
  step : String
  synthetic : Bool
  placement : Option Placement
  deriving DecidableEq, Repr

namespace OrderEntry

def address (p : Placement) : String := s!"{p.host}:{p.port}"

def toJson (e : OrderEntry) : Json := .record <| [
  ("step", .text e.step),
  ("synthetic", .bool e.synthetic)] ++
  Json.present "module" (e.placement.map fun p => .text p.module) ++
  Json.present "address" (e.placement.map fun p => .text (address p))

/-- The number is set flush right in two places. -/
def line (number : Nat) (e : OrderEntry) : String :=
  let shown := if number < 10 then s!" {number}" else s!"{number}"
  let mark := if e.synthetic then "+" else "•"
  let place := match e.placement with
    | some p => s!"{p.module} @ {address p}"
    | none => ""
  s!"  {shown}. {mark} {e.step} {place}"

end OrderEntry

def orderEntries (c : Compiled) : List OrderEntry :=
  c.order.map fun identifier => {
    step := identifier
    synthetic := c.expansion.synthetic.any (·.identifier == identifier)
    placement := c.placement? identifier }

def orderJson (c : Compiled) : Json := .list ((orderEntries c).map OrderEntry.toJson)

def order (c : Compiled) : List String :=
  let entries := orderEntries c
  let shown :=
    if entries.isEmpty then
      [warning "Execution order is empty (no topology or no matched steps)"]
    else
      heading s!"Execution order ({entries.length})" ++
        entries.mapIdx fun i e => e.line (i + 1)
  shown ++ diagnostics c.diagnostics

end PipelinePlan.Command.Report
