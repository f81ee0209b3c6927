import PipelinePlan.Json.Basic
import PipelinePlan.Schema.Descriptor
import PipelinePlan.Schema.Error
import PipelinePlan.Text.Affix
import PipelinePlan.Text.Blank
import PipelinePlan.Text.Words

namespace PipelinePlan.Schema

structure Method where
  name : String
  inputType : String
  outputType : String
  clientStreaming : Bool
  serverStreaming : Bool
  deriving DecidableEq, Repr

structure Service where
  name : String
  fullName : String
  methods : List Method
  deriving DecidableEq, Repr

/-- How generated code is named where it does not follow the schema. -/
structure Naming where
  packageOverride : Option String := none
  multipleFiles : Bool := false
  outerContainerOverride : Option String := none
  deriving DecidableEq, Repr

structure File where
  name : String
  package : String
  dependencies : List String
  naming : Naming
  /-- The absolute names of all messages, nested ones before the one that holds them. -/
  messages : List String
  enums : List String
  services : List Service
  deriving DecidableEq, Repr

def Service.methodsNamed (service : Service) (name : String) : List Method :=
  service.methods.filter (·.name == name)

/-- A name inside a scope. The root scope is a single dot; a name that is empty adds nothing. -/
def inScope (scope name : String) : String :=
  if name.isEmpty then scope
  else if scope == "." then "." ++ name
  else scope ++ "." ++ name

/-- A type name as seen from a package: names that do not start with a dot are relative to it. -/
def absoluteType (package type : String) : String :=
  if Text.startsWith "." type || type.isEmpty then type
  else if package.isEmpty then "." ++ type
  else "." ++ package ++ "." ++ type

mutual

/-- The absolute names of a message and all that it holds, itself last. -/
def MessageDescriptor.names (scope : String) : MessageDescriptor → List String
  | .mk name nested =>
    let own := inScope scope (name.getD "")
    MessageDescriptor.namesOf own nested ++ [own]

def MessageDescriptor.namesOf (scope : String) : List MessageDescriptor → List String
  | [] => []
  | message :: rest => message.names scope ++ MessageDescriptor.namesOf scope rest

end

def Method.ofDescriptor (package : String) (d : MethodDescriptor) : Method where
  name := d.name.getD ""
  inputType := absoluteType package (d.inputType.getD "")
  outputType := absoluteType package (d.outputType.getD "")
  clientStreaming := d.clientStreaming.getD false
  serverStreaming := d.serverStreaming.getD false

def Service.ofDescriptor (package : String) (d : ServiceDescriptor) : Service where
  name := d.name.getD ""
  fullName := if package.isEmpty then d.name.getD "" else package ++ "." ++ d.name.getD ""
  methods := d.methods.map (Method.ofDescriptor package)

/-- An override that is empty is none. -/
def Naming.ofOptions (options : NamingOptions) : Naming where
  packageOverride := options.package.filter (!·.isEmpty)
  multipleFiles := options.multipleFiles.getD false
  outerContainerOverride := options.outerContainer.filter (!·.isEmpty)

def FileDescriptor.file (d : FileDescriptor) : File where
  name := d.name.getD ""
  package := d.package.getD ""
  dependencies := d.dependencies
  naming := (d.options.map Naming.ofOptions).getD {}
  messages := MessageDescriptor.namesOf (inScope "." (d.package.getD "")) d.messages
  enums := d.enums.map (·.getD "")
  services := d.services.map (Service.ofDescriptor (d.package.getD ""))

namespace File

/-- The file of the descriptor at a position of the set; it must have a name. -/
def ofDescriptor (position : Nat) (d : FileDescriptor) : Except Error File :=
  if Text.isBlankText d.file.name then .error (.unnamedFile position) else .ok d.file

def codePackage (file : File) : String := file.naming.packageOverride.getD file.package

/-- A type name without the package of the file, if it lies in that package. -/
def relativeName? (file : File) (type : String) : Option String :=
  let rest := Text.dropPrefix "." type
  if file.package.isEmpty then some rest
  else (Text.afterPrefix? file.package rest).bind (Text.afterPrefix? ".")

def declares (file : File) (message : String) : Bool := file.messages.contains message

def topLevelNames (file : File) : List String :=
  (file.messages.filterMap file.relativeName?).filter (!·.toList.contains '.') ++
    file.enums ++ file.services.map (·.name)

/-- The container named after a file, apart from the names it must not hide. -/
def containerFor (path : String) (taken : List String) : String :=
  let base := String.ofList (Text.afterLast (· == '/') path.toList)
  let candidate := Text.pascal (Text.dropSuffix ".proto" base)
  if taken.contains candidate then candidate ++ "OuterClass" else candidate

def outerContainer (file : File) : String :=
  file.naming.outerContainerOverride.getD (containerFor file.name file.topLevelNames)

end File

def Method.toJson (m : Method) : Json := .record [
  ("name", .text m.name),
  ("input_type", .text m.inputType),
  ("output_type", .text m.outputType),
  ("client_streaming", .bool m.clientStreaming),
  ("server_streaming", .bool m.serverStreaming)]

def Service.toJson (s : Service) : Json := .record [
  ("name", .text s.name),
  ("full_name", .text s.fullName),
  ("methods", .list (s.methods.map Method.toJson))]

def Naming.toJson (n : Naming) : Json := .record <|
  Json.present "package_override" (n.packageOverride.map .text) ++
  [("multiple_files", .bool n.multipleFiles)] ++
  Json.present "outer_container_override" (n.outerContainerOverride.map .text)

def File.toJson (f : File) : Json := .record [
  ("name", .text f.name),
  ("package", .text f.package),
  ("dependencies", .texts f.dependencies),
  ("naming", f.naming.toJson),
  ("messages", .texts f.messages),
  ("enums", .texts f.enums),
  ("services", .list (f.services.map Service.toJson))]

end PipelinePlan.Schema
