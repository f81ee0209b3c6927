import PipelinePlan.Description.Declaration
import PipelinePlan.Overlap

namespace PipelinePlan

structure TopologyEntry where
  name : String
  inputType : String := ""
  outputType : String := ""
  cardinality : Option String := none
  deriving DecidableEq, Repr

abbrev Topology := List TopologyEntry

namespace TopologyEntry

def shape (entry : TopologyEntry) : Except Error Shape :=
  Declaration.shape? entry.name entry.cardinality

/-- Whether a step, or its service, has the name of the entry. -/
def names (entry : TopologyEntry) (step : Step) : Bool :=
  let wanted := Text.token entry.name
  Text.token step.name == wanted || Text.token (Naming.serviceBase step.serviceName) == wanted

/-- The position of the step that the entry refers to, where earlier entries refer to the steps at
the positions in `taken`. A name decides before shared words do, and steps that are not taken come
before the others. -/
def stepAmong? (entry : TopologyEntry) (steps : List Step) (taken : List Nat) : Option Nat :=
  match steps.findIdx? entry.names with
  | some position => some position
  | none =>
    let free := (List.range steps.length).filter (!taken.contains ·)
    let freeNames := free.filterMap fun position => (steps[position]?).map (·.name)
    match (Overlap.best? entry.name freeNames).bind (free[·]?) with
    | some position => some position
    | none => Overlap.best? entry.name (steps.map (·.name))

def step? (entry : TopologyEntry) (steps : List Step) : Option Nat := entry.stepAmong? steps []

/-- The shape of an entry that refers to a step, or to none. The kind of the step decides, and the
entry must not contradict it. -/
def shapeWith (entry : TopologyEntry) : Option Step → Except Error Shape
  | none => entry.shape
  | some step =>
    if (givenText entry.cardinality).isNone then .ok step.shape
    else do
      let declared ← entry.shape
      if declared == step.shape then .ok declared
      else .error (.configuration entry.name
        s!"topology cardinality {declared.label} contradicts step '{step.name}' declared as {step.shape.label}")

def toJson (e : TopologyEntry) : Json := .record <| [
  ("name", .text e.name),
  ("input_type", .text e.inputType),
  ("output_type", .text e.outputType)] ++
  Json.present "cardinality" (e.cardinality.map .text)

def ofJson? (dialect : Json.Dialect) (json : Json) : Option TopologyEntry := do
  let fields ← json.fields? dialect 4
  let name ← fields.required 0 "name" Json.asText?
  let inputType ← fields.withDefault 1 "input_type" Json.asText? ""
  let outputType ← fields.withDefault 2 "output_type" Json.asText? ""
  let cardinality ← fields.optional 3 "cardinality" Json.asText?
  some { name, inputType, outputType, cardinality }

end TopologyEntry

namespace Topology

def matchFrom (steps : List Step) (taken : List Nat) : Topology → List (Option Nat)
  | [] => []
  | entry :: rest =>
    match entry.stepAmong? steps taken with
    | some position => some position :: matchFrom steps (taken ++ [position]) rest
    | none => none :: matchFrom steps taken rest

def matches? (topology : Topology) (steps : List Step) : List (Option Nat) :=
  matchFrom steps [] topology

def matched (topology : Topology) (steps : List Step) : List (TopologyEntry × Option Step) :=
  topology.zip ((topology.matches? steps).map (·.bind (steps[·]?)))

end Topology

end PipelinePlan
