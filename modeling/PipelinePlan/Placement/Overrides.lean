import PipelinePlan.Diagnostic
import PipelinePlan.Error
import PipelinePlan.Json.Table
import PipelinePlan.Text.Blank
import PipelinePlan.Text.Digits

namespace PipelinePlan

structure Module where
  name : String
  host : Option String := none
  port : Option UInt16 := none
  deriving DecidableEq, Repr

structure Overrides where
  modules : List Module := []
  /-- The modules of steps, by the tokens of their names. -/
  stepModules : Table String := ∅
  /-- The modules of aspects, by the tokens of their names. -/
  aspectModules : Table String := ∅
  basePort : UInt16 := 8443
  tlsName : Option String := none
  deriving DecidableEq

namespace Overrides

def keyMark : String := "pipeline."

def moduleMark : String := "pipeline.module."

def basePortKey : String := "pipeline.client.base-port"

def tlsKey : String := "pipeline.client.tls-configuration-name"

inductive Setting where
  | host (value : String)
  | port (value : UInt16)
  | steps (names : List String)
  | aspects (names : List String)
  deriving DecidableEq, Repr

inductive Directive where
  | nothing
  | basePort (port : UInt16)
  | tlsName (name : Option String)
  | module (name : String) (setting : Setting)
  deriving DecidableEq, Repr

/-- A port number: decimal digits, after a plus sign perhaps. -/
def port? (cs : List Char) : Option UInt16 :=
  let digits := match cs with
    | '+' :: rest => rest
    | _ => cs
  if digits.isEmpty || !digits.all Char.isDigit then none
  else
    let n := Text.decimalValue digits
    if n < 65536 then some (UInt16.ofNat n) else none

def readPort (key : String) (value : List Char) : Except Error UInt16 :=
  match port? value with
  | some port => .ok port
  | none => .error (.invalidModuleConfig key s!"'{String.ofList value}' is not a valid port")

/-- The names in a list with commas, without empty ones. -/
def namesIn (value : List Char) : List String :=
  (((Text.pieces (· == ',') value).map Text.trimChars).filter (!·.isEmpty)).map String.ofList

def readSetting (key property : String) (value : List Char) : Except Error Setting :=
  match property with
  | "host" => .ok (.host (String.ofList value))
  | "port" => (readPort key value).map .port
  | "steps" => .ok (.steps (namesIn value))
  | "aspects" => .ok (.aspects (namesIn value))
  | _ => .error (.invalidModuleConfig key s!"unknown module property '{property}'")

/-- The module and the property that a key is about. The name of a module may hold dots. -/
def moduleKey? (key : String) : Option (String × String) := do
  let rest ← Text.afterPrefix? moduleMark key
  let (module, property) ← Text.splitLast? (· == '.') rest.toList
  if module.isEmpty then none else some (String.ofList module, String.ofList property)

/-- The directive of a key and a value. Keys of other programs say nothing. -/
def readProperty (key : String) (value : List Char) : Except Error Directive :=
  if !Text.startsWith keyMark key then .ok .nothing
  else if key == basePortKey then (readPort key value).map .basePort
  else if key == tlsKey then
    .ok (.tlsName (if value.isEmpty then none else some (String.ofList value)))
  else match moduleKey? key with
    | none => .error (.invalidModuleConfig key "unknown property")
    | some (module, property) => (readSetting key property value).map (.module module)

/-- The directive of the line with a number. Blank lines and comments say nothing. -/
def readLine (number : Nat) (line : List Char) : Except Error Directive :=
  let line := Text.trimChars line
  match line with
  | [] | '#' :: _ | '!' :: _ => .ok .nothing
  | _ =>
    match Text.splitFirst? (fun c => c == '=' || c == ':') line with
    | none =>
      .error (.invalidModuleConfig (String.ofList line) s!"line {number} is not a key=value pair")
    | some (key, value) =>
      readProperty (String.ofList (Text.trimChars key)) (Text.trimChars value)

/-- The directives of lines, the first of which has the number `number`. -/
def readLines (number : Nat) : List (List Char) → Except Error (List Directive)
  | [] => .ok []
  | line :: rest => do
    let directive ← readLine number line
    let directives ← readLines (number + 1) rest
    .ok (directive :: directives)

def module? (o : Overrides) (name : String) : Option Module := o.modules.find? (·.name == name)

def declareModule (name : String) (modules : List Module) : List Module :=
  if modules.any (·.name == name) then modules else modules ++ [{ name := name }]

def updateModule (name : String) (change : Module → Module) (modules : List Module) :
    List Module :=
  modules.map fun m => if m.name == name then change m else m

def setTwice (module property : String) : Diagnostic :=
  .warning Diagnostic.duplicateModule module
    s!"'{moduleMark}{module}.{property}' set twice, keeping first"

/-- Assigns one name to a module. A name that another module has stays there. -/
def assign (code module : String) (state : Table String × Diagnostics) (name : String) :
    Table String × Diagnostics :=
  let (table, diagnostics) := state
  match table.find? (Text.token name) with
  | none => (table.insert (Text.token name) module, diagnostics)
  | some owner =>
    if owner == module then state
    else (table, diagnostics ++ [.warning code name
      s!"already assigned to module '{owner}', ignoring '{module}'"])

def applySetting (o : Overrides) (module : String) : Setting → Outcome Overrides
  | .host value =>
    if ((o.module? module).bind (·.host)).isSome then ⟨o, [setTwice module "host"]⟩
    else ⟨{ o with modules := updateModule module ({ · with host := some value }) o.modules }, []⟩
  | .port value =>
    if ((o.module? module).bind (·.port)).isSome then ⟨o, [setTwice module "port"]⟩
    else ⟨{ o with modules := updateModule module ({ · with port := some value }) o.modules }, []⟩
  | .steps names =>
    let (table, diagnostics) :=
      names.foldl (assign Diagnostic.duplicateStepOverride module) (o.stepModules, [])
    ⟨{ o with stepModules := table }, diagnostics⟩
  | .aspects names =>
    let (table, diagnostics) :=
      names.foldl (assign Diagnostic.duplicateAspectOverride module) (o.aspectModules, [])
    ⟨{ o with aspectModules := table }, diagnostics⟩

def apply (o : Overrides) : Directive → Outcome Overrides
  | .nothing => ⟨o, []⟩
  | .basePort port => ⟨{ o with basePort := port }, []⟩
  | .tlsName name => ⟨{ o with tlsName := name }, []⟩
  | .module name setting =>
    applySetting { o with modules := declareModule name o.modules } name setting

/-- What is set for a module stays as it was set first; the base port and the TLS name are those set
last. -/
def advance (state : Outcome Overrides) (directive : Directive) : Outcome Overrides :=
  let next := state.value.apply directive
  ⟨next.value, state.diagnostics ++ next.diagnostics⟩

def parse (text : String) : Except Error (Outcome Overrides) := do
  let directives ← readLines 1 (Text.lines text.toList)
  return directives.foldl advance ⟨{}, []⟩

def toJson (o : Overrides) : Json := .record [
  ("modules", .list (o.modules.map fun m => .record [
    ("name", .text m.name),
    ("host", .orNull (m.host.map .text)),
    ("port", .orNull (m.port.map fun port => .nat port.toNat))])),
  ("step_modules", o.stepModules.toJson .text),
  ("aspect_modules", o.aspectModules.toJson .text),
  ("base_port", .nat o.basePort.toNat),
  ("tls_configuration_name", .orNull (o.tlsName.map .text))]

end Overrides

end PipelinePlan
