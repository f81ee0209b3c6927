import PipelinePlan.Naming
import PipelinePlan.Schema.Error
import PipelinePlan.Step.Shape

namespace PipelinePlan

inductive Error where
  | configuration (step reason : String)
  | unknownStepKind (step token : String)
  | unknownRole (step token : String)
  | invalidServiceName (step service : String)
  | multipleOrchestrators (names : List String)
  | invalidModuleConfig (key reason : String)
  | schema (error : Schema.Error)
  | serviceNotFound (step service : String) (suggestions : List String)
  | duplicateService (step service : String) (files : List String)
  | methodNotFound (step service file : String)
  | duplicateMethod (step service file : String) (count : Nat)
  | unresolvedMessage (step type : String)
  | shapeMismatch (step service method : String) (declared actual : Shape)
  deriving DecidableEq, Repr

namespace Error

inductive Kind where
  | configuration
  | resolution
  | consistency
  deriving DecidableEq, Repr

def Kind.name : Kind → String
  | configuration => "configuration"
  | resolution => "resolution"
  | consistency => "consistency"

def kind : Error → Kind
  | configuration .. | unknownStepKind .. | unknownRole .. | invalidServiceName ..
  | multipleOrchestrators .. | invalidModuleConfig .. => .configuration
  | schema .. | serviceNotFound .. | duplicateService .. | methodNotFound ..
  | duplicateMethod .. | unresolvedMessage .. => .resolution
  | shapeMismatch .. => .consistency

def suggestionText (suggestions : List String) : String :=
  if suggestions.isEmpty then ""
  else ". Did you mean: " ++ ", ".intercalate suggestions ++ "?"

def message : Error → String
  | configuration step reason => s!"Step '{step}': {reason}"
  | unknownStepKind step token =>
    s!"Step '{step}': unknown step kind '{token}' (expected StepOneToOne, StepOneToMany, StepManyToOne or StepManyToMany)"
  | unknownRole step token => s!"Step '{step}': unknown deployment role '{token}'"
  | invalidServiceName step service =>
    s!"Step '{step}': service name '{service}' must start with '{Naming.serviceMark}'"
  | multipleOrchestrators names =>
    "Only one orchestrator may be declared, found: " ++ ", ".intercalate names
  | invalidModuleConfig key reason => s!"Module configuration key '{key}': {reason}"
  | schema error => "Schema resolution failed: " ++ error.message
  | serviceNotFound step service suggestions =>
    s!"Step '{step}': no service named '{service}' in the descriptor set" ++
      suggestionText suggestions
  | duplicateService step service files =>
    s!"Step '{step}': service '{service}' is declared in more than one file: " ++
      ", ".intercalate files
  | methodNotFound step service file =>
    s!"Step '{step}': service '{service}' in {file} has no method '{Naming.remoteMethod}'"
  | duplicateMethod step service file count =>
    s!"Step '{step}': service '{service}' in {file} declares method '{Naming.remoteMethod}' {count} times"
  | unresolvedMessage step type =>
    s!"Step '{step}': message type '{type}' is not declared by any schema file"
  | shapeMismatch step service method declared actual =>
    s!"Step '{step}': declared streaming shape {declared.label} but {service}.{method} is {actual.label}"

end Error

end PipelinePlan
