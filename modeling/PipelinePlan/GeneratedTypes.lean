import PipelinePlan.Binding

namespace PipelinePlan

structure GeneratedTypes where
  request : String
  response : String
  stub : Option String := none
  implBase : Option String := none
  /-- The container with the descriptor of the file that declares the service. -/
  descriptorHolder : Option String := none
  deriving DecidableEq, Repr

namespace GeneratedTypes

/-- The type generated for a message of a file: in the code package, and inside the container of
the file unless every type has a file of its own. -/
def ofMessage (file : Schema.File) (message : String) : String :=
  let path := (file.relativeName? message).getD (Name.relative message)
  if file.naming.multipleFiles then Name.qualify file.codePackage path
  else Name.qualify file.codePackage (file.outerContainer ++ "." ++ path)

def ofType (pool : Schema.Pool) (message : String) : String :=
  match pool.owner? message with
  | some file => ofMessage file message
  | none => Name.relative message

/-- The types for a binding. Stubs need the package of the file that declares the service. -/
def resolve (binding : Binding) (pool : Schema.Pool) : Outcome GeneratedTypes :=
  let request := ofType pool binding.method.inputType
  let response := ofType pool binding.method.outputType
  match (pool.find? binding.file).filter (!·.codePackage.isEmpty) with
  | some file =>
    let service := binding.service.name
    let outer := file.codePackage ++ "." ++ service ++ "Grpc." ++ service
    { value := {
        request
        response
        stub := some (outer ++ "Stub")
        implBase := some (outer ++ "ImplBase")
        descriptorHolder := some (Name.qualify file.codePackage file.outerContainer) } }
  | none =>
    { value := { request, response }
      diagnostics := [.info Diagnostic.wireStubUnavailable binding.step.name
        s!"no package information for '{binding.file}', stub identifiers omitted"] }

def toJson (g : GeneratedTypes) : Json := .record <| [
  ("request_type", .text g.request),
  ("response_type", .text g.response)] ++
  Json.present "stub" (g.stub.map .text) ++
  Json.present "impl_base" (g.implBase.map .text) ++
  Json.present "descriptor_holder" (g.descriptorHolder.map .text)

end GeneratedTypes

end PipelinePlan
