import PipelinePlan.Json.Basic
import PipelinePlan.Text.Affix
import PipelinePlan.Text.Words

namespace PipelinePlan

inductive Shape where
  | unaryUnary
  | streamingUnary
  | unaryStreaming
  | streamingStreaming
  deriving DecidableEq, Inhabited, Repr

namespace Shape

def ofFlags (inputStreaming outputStreaming : Bool) : Shape :=
  match inputStreaming, outputStreaming with
  | false, false => unaryUnary
  | true, false => streamingUnary
  | false, true => unaryStreaming
  | true, true => streamingStreaming

def inputStreaming : Shape → Bool
  | streamingUnary | streamingStreaming => true
  | _ => false

def outputStreaming : Shape → Bool
  | unaryStreaming | streamingStreaming => true
  | _ => false

/-- A shape from the kind of a step or a cardinality. Case, punctuation and a leading `step` do not
matter. -/
def ofToken? (s : String) : Option Shape :=
  match Text.dropPrefix "step" (Text.token s) with
  | "onetoone" | "unaryunary" => some unaryUnary
  | "manytoone" | "reduction" | "streamingunary" => some streamingUnary
  | "onetomany" | "expansion" | "unarystreaming" => some unaryStreaming
  | "manytomany" | "streamingstreaming" => some streamingStreaming
  | _ => none

def label : Shape → String
  | unaryUnary => "unary→unary"
  | streamingUnary => "streaming→unary"
  | unaryStreaming => "unary→streaming"
  | streamingStreaming => "streaming→streaming"

def name : Shape → String
  | unaryUnary => "UNARY_UNARY"
  | streamingUnary => "STREAMING_UNARY"
  | unaryStreaming => "UNARY_STREAMING"
  | streamingStreaming => "STREAMING_STREAMING"

def ofName? : String → Option Shape
  | "UNARY_UNARY" => some unaryUnary
  | "STREAMING_UNARY" => some streamingUnary
  | "UNARY_STREAMING" => some unaryStreaming
  | "STREAMING_STREAMING" => some streamingStreaming
  | _ => none

def toJson (s : Shape) : Json := .text s.name

def ofJson? : Json → Option Shape := Json.asNamed? .json ofName?

end Shape

end PipelinePlan
