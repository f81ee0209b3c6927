import PipelinePlan.Command.Inputs
import PipelinePlan.Text.Affix

namespace PipelinePlan.Command

inductive Shell where
  | bash
  | elvish
  | fish
  | powershell
  | zsh
  deriving DecidableEq, Repr

def Shell.ofName? : String → Option Shell
  | "bash" => some bash
  | "elvish" => some elvish
  | "fish" => some fish
  | "powershell" => some powershell
  | "zsh" => some zsh
  | _ => none

inductive Action where
  | init (name : Option String)
  | compile (paths : Paths)
  | order (paths : Paths)
  | check (paths : Paths)
  | validate
  deriving DecidableEq, Repr

structure Invocation where
  config : String
  json : Bool
  verbose : Bool
  jsonLogs : Bool
  completions : Option Shell
  /-- Without an action, help is shown. -/
  action : Option Action
  deriving DecidableEq, Repr

inductive Refusal where
  | help
  | version
  | misuse
  deriving DecidableEq, Repr

namespace Arguments

/-- The commands that arguments can lead to; `top` is before any of them. -/
inductive Level where
  | top
  | init
  | compile
  | order
  | check
  | config
  | validate
  deriving DecidableEq, Repr

def Level.below : Level → List (String × Level)
  | top => [("init", init), ("compile", compile), ("order", order), ("check", check),
      ("config", config)]
  | config => [("validate", validate)]
  | _ => []

inductive Switch where
  | help
  | version
  | config
  | json
  | verbose
  | jsonLogs
  | completions
  | name
  | pipeline
  | descriptors
  | modules
  | output
  deriving DecidableEq, Repr

namespace Switch

def long : Switch → String
  | help => "help"
  | version => "version"
  | config => "config"
  | json => "json"
  | verbose => "verbose"
  | jsonLogs => "json-logs"
  | completions => "completions"
  | name => "name"
  | pipeline => "pipeline"
  | descriptors => "descriptors"
  | modules => "modules"
  | output => "output"

def short? : Switch → Option Char
  | help => some 'h'
  | version => some 'V'
  | config => some 'c'
  | name => some 'n'
  | pipeline => some 'p'
  | descriptors => some 'd'
  | modules => some 'm'
  | output => some 'o'
  | _ => none

def takesValue : Switch → Bool
  | help | version | json | verbose | jsonLogs => false
  | _ => true

/-- Whether a value is fit: a path is not empty and a shell is a known one. -/
def accepts : Switch → String → Bool
  | completions, value => (Shell.ofName? value).isSome
  | pipeline, value | descriptors, value | modules, value | output, value => !value.isEmpty
  | _, _ => true

end Switch

def Level.options (level : Level) : List Switch :=
  [.help, .config, .json, .verbose, .jsonLogs] ++
  match level with
  | top => [.version, .completions]
  | init => [.name]
  | compile => [.pipeline, .descriptors, .modules, .output]
  | order | check => [.pipeline, .descriptors, .modules]
  | config | validate => []

def Level.long? (level : Level) (name : String) : Option Switch :=
  level.options.find? (·.long == name)

def Level.short? (level : Level) (c : Char) : Option Switch :=
  level.options.find? (·.short? == some c)

structure Given where
  level : Level
  option : Switch
  value : String
  deriving DecidableEq, Repr

/-- Whether every option accepts its value and is given once at its level. -/
def areFit (given : List Given) : Bool :=
  given.all (fun g => g.option.accepts g.value) &&
    decide (given.map fun g => (g.level, g.option)).Nodup

/-- What has been read so far. The latest options come first. -/
structure State where
  level : Level := .top
  given : List Given := []

namespace State

def note (s : State) (option : Switch) (value : String) : State :=
  { s with given := ⟨s.level, option, value⟩ :: s.given }

/-- A value that is an argument of its own is looked at only here, so help that is asked for before
the next option ends the reading first. -/
def checkLevel (s : State) : Except Refusal State :=
  if areFit (s.given.filter (·.level == s.level)) then .ok s else .error .misuse

def checkAll (s : State) : Except Refusal State :=
  if areFit s.given then .ok s else .error .misuse

/-- An option that needs no other argument. Help and version end the reading. -/
def give (s : State) (option : Switch) (value : String) : Except Refusal State := do
  let s ← s.checkLevel
  match option with
  | .help => throw .help
  | .version => throw .version
  | _ => (s.note option value).checkLevel

/-- An option whose value is the next argument. -/
def await (s : State) (option : Switch) : Except Refusal (State × Option Switch) := do
  return (← s.checkLevel, some option)

/-- The value that counts: the one at the deepest level. -/
def value? (s : State) (option : Switch) : Option String :=
  (s.given.find? (·.option == option)).map (·.value)

def has (s : State) (option : Switch) : Bool := (s.value? option).isSome

def paths (s : State) : Paths where
  pipeline := s.value? .pipeline
  descriptors := s.value? .descriptors
  modules := s.value? .modules
  output := s.value? .output

def finish (s : State) : Except Refusal Invocation := do
  let action ← match s.level with
    | .top => pure none
    | .init => pure (some (.init (s.value? .name)))
    | .compile => pure (some (.compile s.paths))
    | .order => pure (some (.order s.paths))
    | .check => pure (some (.check s.paths))
    | .validate => pure (some .validate)
    | .config => throw .misuse
  return {
    config := (s.value? .config).getD Project.defaultConfig
    json := s.has .json
    verbose := s.has .verbose
    jsonLogs := s.has .jsonLogs
    completions := (s.value? .completions).bind Shell.ofName?
    action }

end State

inductive Argument where
  /-- The end of the options. -/
  | dashes
  | long (name : String) (attached : Option String)
  | short (name : Char) (rest : List Char)
  | plain (word : String)
  deriving DecidableEq, Repr

def Argument.ofString (s : String) : Argument :=
  match s.toList with
  | ['-', '-'] => .dashes
  | '-' :: '-' :: cs =>
    match Text.splitFirst? (· == '=') cs with
    | some (name, value) => .long (String.ofList name) (some (String.ofList value))
    | none => .long (String.ofList cs) none
  | '-' :: c :: cs => .short c cs
  | _ => .plain s

/-- A value that stands alone does not look like an option. -/
def isValue (s : String) : Bool :=
  match Argument.ofString s with
  | .plain _ => true
  | _ => false

def helpOn : Level → List String → Refusal
  | _, [] => .help
  | level, word :: rest =>
    match level.below.lookup word with
    | some next => helpOn next rest
    | none => if word == "help" && !level.below.isEmpty && rest.isEmpty then .help else .misuse

/-- Flags that share one dash. The last may be an option with a value: the rest is its value, after
an equals sign if there is one. Gives the option that still waits for a value. -/
def State.shorts (s : State) : Char → List Char → Except Refusal (State × Option Switch)
  | c, rest =>
    match s.level.short? c with
    | none => .error .misuse
    | some option =>
      if option.takesValue then
        match rest with
        | [] => s.await option
        | '=' :: value => (s.give option (String.ofList value)).map (·, none)
        | value => (s.give option (String.ofList value)).map (·, none)
      else do
        let s ← s.give option ""
        match rest with
        | [] => return (s, none)
        | d :: rest => s.shorts d rest

/-- One argument that is not a value. Gives the option that waits for a value. -/
def State.longOption (s : State) (name : String) (attached : Option String) :
    Except Refusal (State × Option Switch) :=
  match s.level.long? name with
  | none => .error .misuse
  | some option =>
    match option.takesValue, attached with
    | true, some value => (s.give option value).map (·, none)
    | true, none => s.await option
    | false, none => (s.give option "").map (·, none)
    | false, some _ => .error .misuse

/-- Reads all arguments; `waiting` is the option whose value comes next. -/
def State.read (s : State) (waiting : Option Switch) : List String → Except Refusal State
  | [] => if waiting.isSome then .error .misuse else s.checkAll
  | arg :: rest =>
    match waiting with
    | some option =>
      if isValue arg then (s.note option arg).read none rest else .error .misuse
    | none =>
      match Argument.ofString arg with
      | .dashes => if rest.isEmpty then s.checkAll else .error .misuse
      | .long name attached => do
        let (s, waiting) ← s.longOption name attached
        s.read waiting rest
      | .short name attached => do
        let (s, waiting) ← s.shorts name attached
        s.read waiting rest
      | .plain word =>
        match s.level.below.lookup word with
        | some level => { s with level }.read none rest
        | none =>
          if word == "help" && !s.level.below.isEmpty then .error (helpOn s.level rest)
          else .error .misuse

def parse (args : List String) : Except Refusal Invocation := do
  (← State.read {} none args).finish

end Arguments

end PipelinePlan.Command
