import PipelinePlan.Command.Inputs
import PipelinePlan.Command.Plan
import PipelinePlan.Command.Report

namespace PipelinePlan.Command

variable {m : Type → Type} [Monad m] [Host m]

def say (line : String) : Run m Unit := liftM (Host.printLine (m := m) line)

def sayAll (lines : List String) : Run m Unit := lines.forM say

def init (config : String) (name : Option String) : Run m Unit := do
  if ← liftM (Host.pathExists (m := m) config) then throw (.configExists config)
  say (Report.step "Initializing pipeworks project...")
  let current ← liftM (Host.currentName (m := m))
  let project := Project.starter (name.getD (current.getD "pipeline"))
  project.validate
  orFail (.writeConfig config) (Host.writeText config project.toToml)
  sayAll [
    Report.success ("Created " ++ config),
    "",
    "Next steps:",
    "  1. Produce a descriptor set: protoc --include_imports --descriptor_set_out=target/descriptors.bin ...",
    "  2. Describe your steps in pipeline.toml",
    "  3. Compile: pw compile"]

/-- Loads a configuration; a failure tells how to come by one. -/
def loadConfig (config : String) : Run m Project :=
  tryCatch (Project.load config) fun cause => throw (.unusableConfig cause)

def validate (config : String) : Run m Unit := do
  say (Report.step "Validating configuration...")
  let project ← loadConfig config
  let input (label : String) (path : Option String) : String :=
    s!"  • {label}: " ++ path.getD "(not set)"
  sayAll [
    Report.success "Configuration is valid!",
    "",
    "  Project: " ++ project.name,
    "  Output: " ++ project.outputDir,
    input "pipeline" project.inputs.pipeline,
    input "descriptors" project.inputs.descriptors,
    input "modules" project.inputs.modules]

/-- Writes the artifacts and the plan of a pipeline; gives it back with what was remarked on, and the
paths of the files. -/
def writeOutputs (c : Compiled) (dir : String) : Run m (Compiled × List String) := do
  let (c, artifacts) ← liftM (c.writeArtifacts (m := m) dir)
  let (_, draft) ← (c.emit (PlanDraft.emitter (m := m) dir)).run {}
  return (c, artifacts ++ draft.written.toList)

/-- Compiles a pipeline and writes what comes out of it. -/
def compile (config : String) (paths : Paths) (json : Bool) : Run m Unit := do
  let (inputs, c) ← compileInputs config paths
  let (c, written) ← writeOutputs c inputs.outputDir
  if json then say c.toJson.pretty else sayAll (Report.compiled c written)

/-- Compiles a pipeline without writing anything; gives whether every step compiled. -/
def check (config : String) (paths : Paths) (json : Bool) : Run m Bool := do
  let (_, c) ← compileInputs config paths
  if json then say (Report.checkedJson c).pretty else sayAll (Report.checked c)
  return c.isSuccess

def order (config : String) (paths : Paths) (json : Bool) : Run m Unit := do
  let (_, c) ← compileInputs config paths
  if json then say (Report.orderJson c).pretty else sayAll (Report.order c)

end PipelinePlan.Command
