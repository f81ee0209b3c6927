import PipelinePlan.Command.Arguments
import PipelinePlan.Command.Basic

namespace PipelinePlan.Command

/-- How the program ends: its exit status, and what it complains of. -/
structure Ending where
  status : Nat
  complaint : String := ""
  deriving DecidableEq, Repr

def usage : String := "\n".intercalate [
  "Pipeworks - resolve pipeline steps against their service schemas",
  "",
  "Usage: pw [OPTIONS] [COMMAND]",
  "",
  "Commands:",
  "  init     Initialize a new Pipeworks project",
  "  compile  Resolve the pipeline and write artifacts plus plan.json",
  "  order    Print the expanded execution order",
  "  check    Resolve without writing files; exits with status 1 if any step fails",
  "  config   Configuration management commands",
  "  help     Print this message or the help of the given subcommand(s)",
  "",
  "Options:",
  "  -c, --config <CONFIG>      Path to pipeworks.toml configuration file [default: pipeworks.toml]",
  "      --json                 Output as JSON (machine-readable format)",
  "      --verbose              Enable verbose output",
  "      --json-logs            Emit logs as JSON lines on stderr",
  "      --completions <SHELL>  Generate shell completions",
  "  -h, --help                 Print help",
  "  -V, --version              Print version"]

variable {m : Type → Type} [Monad m] [Host m]

/-- Does what was asked for; gives whether it came out well. -/
def perform (action : Action) (config : String) (json : Bool) : Run m Bool := do
  match action with
  | .init name => init config name; return true
  | .compile paths => compile config paths json; return true
  | .order paths => order config paths json; return true
  | .check paths => check config paths json
  | .validate => validate config; return true

def Invocation.run (i : Invocation) : m Ending := do
  match i.completions, i.action with
  | some _, _ => return { status := 0 }
  | none, none => Host.printLine usage; return { status := 0 }
  | none, some action =>
    match ← (perform (m := m) action i.config i.json).run with
    | .ok true => return { status := 0 }
    | .ok false => return { status := 1 }
    | .error failure => return { status := 1, complaint := s!"Error: {failure.message}\n" }

def run (args : List String) : m Ending := do
  match Arguments.parse args with
  | .ok invocation => invocation.run
  | .error .help => Host.printLine usage; return { status := 0 }
  | .error .version => Host.printLine "pw 0.3.1"; return { status := 0 }
  | .error .misuse => return { status := 2, complaint := usage ++ "\n" }

end PipelinePlan.Command
