import PipelinePlan.Schema.Pool
import PipelinePlan.Text.EditDistance
import PipelinePlan.Text.Lowercase

namespace PipelinePlan.Schema

structure Suggestion where
  candidate : String
  distance : Nat
  deriving DecidableEq, Repr

/-- How far a candidate is from a name. Names that differ only in case are closest, then those of
which one holds the other. -/
def distance (name candidate : String) : Nat :=
  let wanted := (Text.lower name).toList
  let lowered := (Text.lower candidate).toList
  if lowered == wanted then 0
  else if Text.occursIn wanted lowered || Text.occursIn lowered wanted then 1
  else Text.editDistance name.toList candidate.toList

/-- Drops every suggestion that repeats the candidate kept before it. -/
def dropRepeats : Option String → List Suggestion → List Suggestion
  | _, [] => []
  | last, s :: rest =>
    if last == some s.candidate then dropRepeats last rest
    else s :: dropRepeats (some s.candidate) rest

/-- The candidates other than the name itself within a distance, the closest first and otherwise in
their own order. -/
def suggest (name : String) (candidates : List String) (limit : Nat) : List Suggestion :=
  let scored := (candidates.filter (· != name)).map fun c => ⟨c, distance name c⟩
  let near := scored.filter (·.distance ≤ limit)
  dropRepeats none (near.mergeSort fun a b => a.distance ≤ b.distance)

def Pool.suggestServices (pool : Pool) (name : String) : List String :=
  ((suggest name pool.serviceNames 4).take 3).map (·.candidate)

end PipelinePlan.Schema
