import PipelinePlan.Description.Basic
import PipelinePlan.Diagnostic

namespace PipelinePlan.Order

/-- What a step declares about itself: its name and the types it takes and gives. -/
structure Contract where
  name : Option String := none
  inputType : Option String := none
  outputType : Option String := none
  deriving DecidableEq, Repr

def Contract.ofStep (step : Step) : Contract where
  name := some step.name
  inputType := step.input.domainType
  outputType := step.output.domainType

def Contract.toJson (c : Contract) : Json := .record [
  ("name", .orNull (c.name.map .text)),
  ("input_type", .orNull (c.inputType.map .text)),
  ("output_type", .orNull (c.outputType.map .text))]

def contracts (steps : List Step) (transport : Transport) : Table Contract :=
  .ofList (steps.map fun step => (step.client transport, .ofStep step))

structure SyntheticStep where
  identifier : String
  aspect : String
  type : String
  /-- The step of the base order that it stands beside. -/
  parent : String
  position : Position
  deriving DecidableEq, Repr

def SyntheticStep.toJson (s : SyntheticStep) : Json := .record [
  ("identifier", .text s.identifier),
  ("aspect", .text s.aspect),
  ("type_name", .text s.type),
  ("parent", .text s.parent),
  ("position", .text s.position.name)]

structure Expansion where
  order : List String := []
  synthetic : List SyntheticStep := []
  deriving DecidableEq, Repr

namespace Expansion

def synthetic? (e : Expansion) (identifier : String) : Option SyntheticStep :=
  e.synthetic.find? (·.identifier == identifier)

def parents (e : Expansion) : Table String :=
  .ofList (e.synthetic.map fun s => (s.identifier, s.parent))

def toJson (e : Expansion) : Json := .record [
  ("order", .texts e.order),
  ("synthetic", .list (e.synthetic.map SyntheticStep.toJson))]

end Expansion

structure Expander where
  aspects : Table Aspect
  contracts : Table Contract
  topology : Topology
  baseSpace : String
  transport : Transport
  /-- Tells whether an identifier exists, if that is known. -/
  knows : Option (String → Bool) := none

/-- The aspect that the runtime applies without side effects. -/
def excludedAspect : String := "cache"

namespace Expander

def eligible (x : Expander) : List (String × Aspect) :=
  x.aspects.entries.filter fun (name, aspect) =>
    aspect.enabled && Text.token name != excludedAspect

/-- The tokens by which a step may be meant. -/
def stepKeys (x : Expander) (step : String) : List String :=
  let simple := Name.simple step
  let stem := Text.dropSuffix x.transport.adapterSuffix simple
  [Text.token simple, Text.token stem, Text.token (Naming.serviceBase stem)] ++
    ((x.contracts.find? step).bind (·.name)).toList.map Text.token

def inScope (x : Expander) (step : String) (aspect : Aspect) : Bool :=
  match aspect.scope with
  | .global => true
  | .steps =>
    let keys := x.stepKeys step
    (aspect.targetSteps.map Text.token).any fun t => !t.isEmpty && keys.contains t

def entry? (x : Expander) (step : String) : Option TopologyEntry :=
  let keys := x.stepKeys step
  match x.topology.find? fun entry => keys.contains (Text.token entry.name) with
  | some entry => some entry
  | none => (Overlap.best? step (x.topology.map (·.name))).bind (x.topology[·]?)

/-- The type at one side of a step: the declared one, or else the one in the topology. -/
def type? (x : Expander) (step : String) (position : Position) : Option String :=
  let declared := (x.contracts.find? step).bind fun c =>
    match position with
    | .before => c.inputType
    | .after => c.outputType
  match declared.filter (!Name.isVoid ·) with
  | some type => some type
  | none =>
    ((x.entry? step).map fun entry =>
      match position with
      | .before => Text.trim entry.inputType
      | .after => Text.trim entry.outputType).filter (!Name.isVoid ·)

/-- Side effects with one key are one side effect. -/
abbrev Key := String × String

def keyOf (aspect type : String) : Key := (Text.token aspect, Name.bareType type)

/-- Where an expansion stands: what is ordered, the keys that are used up, the remarks. -/
structure State where
  expansion : Expansion := {}
  used : List Key := []
  diagnostics : Diagnostics := []

def sideEffect (x : Expander) (step aspect type : String) (position : Position) : SyntheticStep where
  identifier :=
    Naming.sideEffect ((Name.space? step).getD x.baseSpace) aspect type x.transport
  aspect := aspect
  type := type
  parent := step
  position := position

/-- A remark on a side effect whose identifier is known not to exist. -/
def unverified (x : Expander) (s : SyntheticStep) : Diagnostics :=
  match x.knows with
  | none => []
  | some knows =>
    if knows s.identifier then []
    else [.warning Diagnostic.unverifiedSyntheticStep s.identifier
      s!"side effect for aspect '{s.aspect}' does not resolve"]

/-- Adds the side effect of an aspect beside a step, if the aspect finds a type there and has no side
effect on that type already. -/
def insert (x : Expander) (step : String) (state : State) (entry : String × Aspect) : State :=
  let (name, aspect) := entry
  if !x.inScope step aspect then state
  else match x.type? step aspect.position with
    | none => state
    | some type =>
      let key := keyOf name type
      if state.used.contains key then state
      else
        let added := x.sideEffect step name type aspect.position
        { expansion := {
            order := state.expansion.order ++ [added.identifier]
            synthetic := state.expansion.synthetic ++ [added] }
          used := key :: state.used
          diagnostics := state.diagnostics ++ x.unverified added }

def expandStep (x : Expander) (before after : List (String × Aspect)) (state : State)
    (step : String) : State :=
  let state := before.foldl (x.insert step) state
  let state := { state with
    expansion := { state.expansion with order := state.expansion.order ++ [step] } }
  after.foldl (x.insert step) state

/-- Expands a base order. An order that has side effects already is left alone. -/
def run (x : Expander) (base : List String) : Outcome Expansion :=
  if base.isEmpty || x.aspects.isEmpty || base.any Naming.isSideEffect || x.eligible.isEmpty then
    { value := { order := base } }
  else
    let (before, after) := x.eligible.partition fun entry => entry.2.position == .before
    let final := base.foldl (x.expandStep before after) {}
    { value := final.expansion, diagnostics := final.diagnostics }

end Expander

end PipelinePlan.Order
