import PipelinePlan.Artifacts
import PipelinePlan.Binding
import PipelinePlan.Command.Arguments
import PipelinePlan.Command.Basic
import PipelinePlan.Command.Failure
import PipelinePlan.Command.Inputs
import PipelinePlan.Command.Plan
import PipelinePlan.Command.Program
import PipelinePlan.Command.Project
import PipelinePlan.Command.Report
import PipelinePlan.Compilation.Basic
import PipelinePlan.Compilation.Emission
import PipelinePlan.Description.Basic
import PipelinePlan.Description.Declaration
import PipelinePlan.Description.Topology
import PipelinePlan.Diagnostic
import PipelinePlan.Error
import PipelinePlan.GeneratedTypes
import PipelinePlan.Host.Basic
import PipelinePlan.Host.FileSystem
import PipelinePlan.Host.Path
import PipelinePlan.Json.Basic
import PipelinePlan.Json.Reader
import PipelinePlan.Json.Table
import PipelinePlan.Json.Writer
import PipelinePlan.Main
import PipelinePlan.Name
import PipelinePlan.Naming
import PipelinePlan.Orchestrator
import PipelinePlan.Order.Base
import PipelinePlan.Order.Expansion
import PipelinePlan.Overlap
import PipelinePlan.Placement.Basic
import PipelinePlan.Placement.Overrides
import PipelinePlan.Proofs.Name
import PipelinePlan.Proofs.Naming
import PipelinePlan.Proofs.Order.Identifiers
import PipelinePlan.Proofs.Order.LineUp
import PipelinePlan.Proofs.Schema.Convergence
import PipelinePlan.Proofs.Schema.ListingOrder
import PipelinePlan.Proofs.Schema.Sweep
import PipelinePlan.Proofs.Schema.Visibility
import PipelinePlan.Proofs.Table
import PipelinePlan.Schema.Descriptor
import PipelinePlan.Schema.Error
import PipelinePlan.Schema.File
import PipelinePlan.Schema.Pool
import PipelinePlan.Schema.Suggestion
import PipelinePlan.Step.Basic
import PipelinePlan.Step.Role
import PipelinePlan.Step.Shape
import PipelinePlan.Table
import PipelinePlan.Text.Affix
import PipelinePlan.Text.Blank
import PipelinePlan.Text.CaseTable
import PipelinePlan.Text.Digits
import PipelinePlan.Text.EditDistance
import PipelinePlan.Text.Lowercase
import PipelinePlan.Text.Words
import PipelinePlan.Toml.Basic
import PipelinePlan.Toml.Reader
import PipelinePlan.Toml.Scalar
import PipelinePlan.Toml.Writer
import PipelinePlan.Transport
import PipelinePlan.Wire.Layout
import PipelinePlan.Wire.Record
import PipelinePlan.Wire.Token
import PipelinePlan.Proofs.Schema.Shadowing
import PipelinePlan.Proofs.Compilation.Isolation
import PipelinePlan.Proofs.Order.TopologyEntries
import PipelinePlan.Proofs.Schema.BuiltPool
import PipelinePlan.Proofs.Order.Base
import PipelinePlan.Proofs.Order.Guard
import PipelinePlan.Proofs.Compilation.Boundary
import PipelinePlan.Proofs.Compilation.Accounting
import PipelinePlan.Proofs.Binding
import PipelinePlan.Proofs.Placement.Numbering
import PipelinePlan.Proofs.Placement.Ports
import PipelinePlan.Proofs.Placement.Overrides
import PipelinePlan.Proofs.Compilation.Cardinality
import PipelinePlan.Proofs.Placement.FirstSetting
import PipelinePlan.Proofs.Json.Atoms
import PipelinePlan.Proofs.Json.RoundTrip
import PipelinePlan.Proofs.Placement.SharedClients
import PipelinePlan.Proofs.Artifacts
import PipelinePlan.Proofs.Description.ReadBack
import PipelinePlan.Proofs.Description.Matching
import PipelinePlan.Proofs.Order.BaseAccounting
import PipelinePlan.Proofs.Orchestrator
import PipelinePlan.Proofs.Wire.Grammar
import PipelinePlan.Proofs.Wire.Messages
import PipelinePlan.Proofs.Schema.Encoding
import PipelinePlan.Proofs.Description.References
import PipelinePlan.Proofs.Compilation.Verification
import PipelinePlan.Proofs.Description.Unrelated
import PipelinePlan.Proofs.Order.Interference
import PipelinePlan.Proofs.Order.Verification
import PipelinePlan.Proofs.Placement.Properties
import PipelinePlan.Proofs.Placement.Refusal
import PipelinePlan.Proofs.Schema.Suggestion
import PipelinePlan.Proofs.GeneratedTypes
import PipelinePlan.Proofs.Schema.OuterContainer
import PipelinePlan.Proofs.Schema.Repetition
import PipelinePlan.Proofs.Compilation.Emission
import PipelinePlan.Proofs.Text.Blank
import PipelinePlan.Proofs.Description.Extraction
import PipelinePlan.Proofs.Host.Directories
import PipelinePlan.Proofs.Compilation.ArtifactFiles
import PipelinePlan.Proofs.Schema.Passes
import PipelinePlan.Proofs.Schema.Search
import PipelinePlan.Proofs.Description.ServiceNames
