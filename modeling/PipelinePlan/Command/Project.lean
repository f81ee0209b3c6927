import PipelinePlan.Command.Failure
import PipelinePlan.Host.Basic
import PipelinePlan.Text.Blank
import PipelinePlan.Toml.Reader
import PipelinePlan.Toml.Writer

namespace PipelinePlan.Command

structure Inputs where
  pipeline : Option String := none
  descriptors : Option String := none
  modules : Option String := none
  deriving DecidableEq, Repr

structure Project where
  name : String
  inputs : Inputs := {}
  outputDir : String
  deriving DecidableEq, Repr

namespace Project

def defaultOutputDir : String := "./target/pipeworks"

def defaultConfig : String := "pipeworks.toml"

def nameOf? (json : Json) : Option String := do
  let fields ← json.fields? .toml 1
  fields.required 0 "name" Json.asText?

def inputsOf? (json : Json) : Option Inputs := do
  let fields ← json.fields? .toml 3
  let pipeline ← input fields 0 "pipeline"
  let descriptors ← input fields 1 "descriptors"
  let modules ← input fields 2 "modules"
  some { pipeline, descriptors, modules }
where
  /-- An input may be left out by name, but not in a list. -/
  input (fields : Json.Fields) (position : Nat) (name : String) : Option (Option String) :=
    match fields with
    | .named _ => fields.optional position name Json.asText?
    | .listed _ => fields.required position name (Json.asOption? Json.asText?)

def outputDirOf? (json : Json) : Option String := do
  let fields ← json.fields? .toml 1
  fields.withDefault 0 "dir" Json.asText? defaultOutputDir

def ofJson? (json : Json) : Option Project := do
  let fields ← json.fields? .toml 3
  let name ← fields.required 0 "project" nameOf?
  let inputs ← fields.withDefault 1 "inputs" inputsOf? {}
  let outputDir ← fields.withDefault 2 "output" outputDirOf? defaultOutputDir
  some { name, inputs, outputDir }

def toJson (p : Project) : Json := .record [
  ("project", .record [("name", .text p.name)]),
  ("inputs", .record (
    Json.present "pipeline" (p.inputs.pipeline.map .text) ++
    Json.present "descriptors" (p.inputs.descriptors.map .text) ++
    Json.present "modules" (p.inputs.modules.map .text))),
  ("output", .record [("dir", .text p.outputDir)])]

def starter (name : String) : Project where
  name := name
  inputs := { pipeline := some "pipeline.toml", descriptors := some "target/descriptors.bin" }
  outputDir := defaultOutputDir

def tomlLine (key value : String) : String := key ++ " = " ++ Toml.quote value ++ "\n"

def tomlLine? (key : String) : Option String → String
  | some value => tomlLine key value
  | none => ""

def toToml (p : Project) : String :=
  "[project]\n" ++ tomlLine "name" p.name ++
  "\n[inputs]\n" ++ tomlLine? "pipeline" p.inputs.pipeline ++
    tomlLine? "descriptors" p.inputs.descriptors ++ tomlLine? "modules" p.inputs.modules ++
  "\n[output]\n" ++ tomlLine "dir" p.outputDir

variable {m : Type → Type} [Monad m] [Host m]

def validate (p : Project) : Run m Unit :=
  if Text.isBlankText p.name then throw .emptyProjectName else pure ()

def load (path : String) : Run m Project := do
  let text ← orFail (.readConfig path) (Host.readText path)
  let some json := Toml.parse? text | throw (.parseConfig path "the file is not TOML")
  let some project := ofJson? json
    | throw (.parseConfig path "a value is missing or not of its type")
  project.validate
  return project

def load? (path : String) : Run m (Option Project) := do
  if ← liftM (Host.pathExists (m := m) path) then return some (← load path) else return none

end Project

end PipelinePlan.Command
