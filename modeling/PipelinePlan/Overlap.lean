import PipelinePlan.Name
import PipelinePlan.Text.Words

namespace PipelinePlan.Overlap

/-- The words that every adapter and service name may hold. -/
def noise : List String :=
  ["process", "grpc", "rest", "client", "step", "service", "side", "effect"]

/-- The words of the simple name, in small letters, that tell it from other names. -/
def meaningfulWords (s : String) : List (List Char) :=
  (Text.lowerWords (Name.simple s)).filter fun w => !(noise.map String.toList).contains w

/-- How far two names overlap: first the number of shared words counts, then their length. -/
structure Score where
  count : Nat
  length : Nat
  deriving DecidableEq, Repr

def Score.lt (a b : Score) : Bool :=
  a.count < b.count || (a.count == b.count && a.length < b.length)

def score? (wanted : List (List Char)) (candidate : String) : Option Score :=
  let tokens := meaningfulWords candidate
  let shared := wanted.filter tokens.contains
  if shared.isEmpty then none else some ⟨shared.length, shared.flatten.length⟩

/-- Keeps the better of two scored positions, the first one if they are level. -/
def better (best : Option (Nat × Score)) (position : Nat) (score : Score) : Option (Nat × Score) :=
  match best with
  | none => some (position, score)
  | some (_, top) => if top.lt score then some (position, score) else best

/-- Goes on from `position` with the best so far. -/
def bestFrom (wanted : List (List Char)) (position : Nat) (best : Option (Nat × Score)) :
    List String → Option (Nat × Score)
  | [] => best
  | candidate :: rest =>
    let next := match score? wanted candidate with
      | some score => better best position score
      | none => best
    bestFrom wanted (position + 1) next rest

/-- The position of the first candidate with the greatest overlap, if any candidate shares a
word. -/
def best? (name : String) (candidates : List String) : Option Nat :=
  (bestFrom (meaningfulWords name) 0 none candidates).map (·.1)

end PipelinePlan.Overlap
