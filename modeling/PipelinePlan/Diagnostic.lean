import PipelinePlan.Json.Basic

namespace PipelinePlan

inductive Severity where
  | warning
  | info
  deriving DecidableEq, Repr

def Severity.name : Severity → String
  | warning => "warning"
  | info => "info"

structure Diagnostic where
  severity : Severity
  code : String
  subject : String
  message : String
  deriving DecidableEq, Repr

abbrev Diagnostics := List Diagnostic

namespace Diagnostic

def warning (code subject message : String) : Diagnostic := ⟨.warning, code, subject, message⟩

def info (code subject message : String) : Diagnostic := ⟨.info, code, subject, message⟩

def extraMethod : String := "extra-rpc-method"
def duplicateStepOverride : String := "duplicate-step-override"
def duplicateAspectOverride : String := "duplicate-aspect-override"
def duplicateModule : String := "duplicate-module"
def unverifiedSyntheticStep : String := "unverified-synthetic-step"
def artifactWriteFailed : String := "artifact-write-failed"
def wireStubUnavailable : String := "wire-stub-unavailable"
def topologyStepUnmatched : String := "topology-step-unmatched"
def topologyStepDuplicate : String := "topology-step-duplicate"
def stepNotInTopology : String := "step-not-in-topology"

def toJson (d : Diagnostic) : Json := .record [
  ("severity", .text d.severity.name),
  ("code", .text d.code),
  ("subject", .text d.subject),
  ("message", .text d.message)]

end Diagnostic

namespace Diagnostics

def warnings (ds : Diagnostics) : Nat := (ds.filter (·.severity == .warning)).length

def withCode (ds : Diagnostics) (code : String) : Diagnostics := ds.filter (·.code == code)

def hasCode (ds : Diagnostics) (code : String) : Bool := ds.any (·.code == code)

def toJson (ds : Diagnostics) : Json := .list (ds.map Diagnostic.toJson)

end Diagnostics

/-- A result with the remarks that were made on the way to it. -/
structure Outcome (α : Type) where
  value : α
  diagnostics : Diagnostics := []
  deriving DecidableEq, Repr

end PipelinePlan
