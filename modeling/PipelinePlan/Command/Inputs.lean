import PipelinePlan.Command.Project
import PipelinePlan.Compilation.Basic

namespace PipelinePlan.Command

structure Paths where
  pipeline : Option String := none
  descriptors : Option String := none
  modules : Option String := none
  output : Option String := none
  deriving DecidableEq, Repr

structure Resolved where
  name : String
  pipeline : String
  descriptors : String
  modules : Option String
  outputDir : String
  deriving DecidableEq, Repr

/-- The directory of a file, which the paths in it start from. -/
def directoryOf (path : String) : String :=
  match Path.parent? path with
  | none | some "" => "."
  | some parent => parent

variable {m : Type → Type} [Monad m] [Host m]

/-- The paths of the command line, or else those of the configuration. -/
def resolve (config : String) (paths : Paths) : Run m Resolved := do
  let project ← Project.load? config
  let base := directoryOf config
  let inputs := (project.map (·.inputs)).getD {}
  let relative (path : Option String) : Option String := path.map (Path.join base)
  let some pipeline := paths.pipeline.or (relative inputs.pipeline) | throw (.noPipeline config)
  let some descriptors := paths.descriptors.or (relative inputs.descriptors)
    | throw (.noDescriptors config)
  let outputDir := match project with
    | some p => Path.join base p.outputDir
    | none => Project.defaultOutputDir
  return {
    name := (project.map (·.name)).getD "pipeline"
    pipeline
    descriptors
    modules := paths.modules.or (relative inputs.modules)
    outputDir := paths.output.getD outputDir }

def loadDescription (path : String) : Run m Description := do
  let text ← orFail (.readPipeline path) (Host.readText path)
  let some json := Toml.parse? text | throw (.parsePipeline path "the file is not TOML")
  let some description := Description.ofJson? .toml json
    | throw (.parsePipeline path "a value is missing or not of its type")
  return description

def loadDescriptors (path : String) : Run m (List Schema.FileDescriptor) := do
  let bytes ← orFail (fun e => .loadDescriptors path (.read path e.message)) (Host.readFile path)
  match Schema.decodeSet? bytes with
  | some descriptors => return descriptors
  | none => throw (.loadDescriptors path (.decode path "the bytes are not a descriptor set"))

def loadOverrides : Option String → Run m (Outcome Overrides)
  | none => return { value := {} }
  | some path => do
    let text ← orFail (.readOverrides path) (Host.readText path)
    match Overrides.parse text with
    | .ok outcome => return outcome
    | .error e => throw (.invalidOverrides path e)

def load (inputs : Resolved) : Run m (Outcome Source) := do
  let description ← loadDescription inputs.pipeline
  let descriptors ← loadDescriptors inputs.descriptors
  let overrides ← loadOverrides inputs.modules
  return {
    value := { name := inputs.name, description, descriptors, overrides := overrides.value }
    diagnostics := overrides.diagnostics }

/-- Reads and compiles; the remarks on the inputs come first. -/
def compileInputs (config : String) (paths : Paths) : Run m (Resolved × Compiled) := do
  let inputs ← resolve config paths
  let source ← load inputs
  match source.value.compile with
  | .error e => throw (.compile e)
  | .ok (compiled, _) =>
    return (inputs, { compiled with diagnostics := source.diagnostics ++ compiled.diagnostics })

end PipelinePlan.Command
