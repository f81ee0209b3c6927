import PipelinePlan.Error
import PipelinePlan.Host.FileSystem

namespace PipelinePlan.Command

inductive Failure where
  | readConfig (path : String) (error : FileError)
  | parseConfig (path reason : String)
  | emptyProjectName
  | unusableConfig (cause : Failure)
  | configExists (path : String)
  | writeConfig (path : String) (error : FileError)
  | noPipeline (config : String)
  | noDescriptors (config : String)
  | readPipeline (path : String) (error : FileError)
  | parsePipeline (path reason : String)
  | loadDescriptors (path : String) (error : Schema.Error)
  | readOverrides (path : String) (error : FileError)
  | invalidOverrides (path : String) (error : Error)
  | compile (error : Error)
  | createOutput (dir : String) (error : FileError)
  | writeOutput (path : String) (error : FileError)
  deriving Repr

namespace Failure

def chain : Failure → List String
  | readConfig path e => ["Failed to read config file: " ++ path, e.message]
  | parseConfig path reason => ["Failed to parse config file: " ++ path, reason]
  | emptyProjectName => ["Project name cannot be empty"]
  | unusableConfig cause =>
    "Failed to load configuration. Run `pw init` to create a configuration file." :: cause.chain
  | configExists path =>
    [s!"Configuration file already exists: {path}\nUse a different path or remove the existing file."]
  | writeConfig path e => ["Failed to write config file: " ++ path, e.message]
  | noPipeline config =>
    [s!"No pipeline description given: pass --pipeline or set [inputs] pipeline in {config}"]
  | noDescriptors config =>
    [s!"No descriptor set given: pass --descriptors or set [inputs] descriptors in {config}"]
  | readPipeline path e => ["Failed to read pipeline description: " ++ path, e.message]
  | parsePipeline path reason => ["Failed to parse pipeline description: " ++ path, reason]
  | loadDescriptors path e => ["Failed to load descriptor set: " ++ path, e.message]
  | readOverrides path e => ["Failed to read module overrides: " ++ path, e.message]
  | invalidOverrides path e => ["Invalid module overrides: " ++ path, e.message]
  | compile e => [e.message]
  | createOutput dir e => ["Failed to create output directory: " ++ dir, e.message]
  | writeOutput path e => ["Failed to write " ++ path, e.message]

def message (f : Failure) : String := ": ".intercalate f.chain

end Failure

/-- What a command does: effects in `m` that may end in a failure. -/
abbrev Run (m : Type → Type) (α : Type) := ExceptT Failure m α

variable {m : Type → Type} [Monad m]

/-- Goes on with a result, or fails with what its error amounts to. -/
def orFail {ε α : Type} (failure : ε → Failure) (action : m (Except ε α)) : Run m α := do
  match ← liftM action with
  | .ok a => return a
  | .error e => throw (failure e)

end PipelinePlan.Command
