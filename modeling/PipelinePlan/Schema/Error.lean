namespace PipelinePlan.Schema

inductive Error where
  | read (path reason : String)
  | decode (source reason : String)
  | unnamedFile (position : Nat)
  | duplicateFile (name : String)
  | unresolved (files missing : List String) (passes : Nat)
  | unknownMessage (file service method type : String)
  deriving DecidableEq, Repr

def Error.message : Error → String
  | read path reason => s!"Failed to read descriptor set {path}: {reason}"
  | decode source reason => s!"Failed to decode descriptor set {source}: {reason}"
  | unnamedFile position => s!"Schema file at position {position} has no name"
  | duplicateFile name => s!"Schema file '{name}' is declared more than once"
  | unresolved files missing passes =>
    let files := ", ".intercalate files
    let missing := ", ".intercalate missing
    s!"Could not resolve schema files after {passes} passes: {files} (missing or cyclic dependencies: {missing})"
  | unknownMessage file service method type =>
    s!"{file}: method {service}.{method} references unknown message type '{type}'"

end PipelinePlan.Schema
