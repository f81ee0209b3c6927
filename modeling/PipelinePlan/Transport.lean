import PipelinePlan.Json.Basic

namespace PipelinePlan

inductive Transport where
  | grpc
  | rest
  deriving DecidableEq, Inhabited, Repr

namespace Transport

def name : Transport → String
  | grpc => "GRPC"
  | rest => "REST"

/-- The transports may be given by other names than their own. -/
def ofName? : String → Option Transport
  | "GRPC" | "grpc" => some grpc
  | "REST" | "rest" | "HTTP" | "http" => some rest
  | _ => none

/-- What ends the identifier of every client adapter for the transport. -/
def adapterSuffix : Transport → String
  | grpc => "GrpcClientStep"
  | rest => "RestClientStep"

def all : List Transport := [grpc, rest]

def toJson (t : Transport) : Json := .text t.name

def ofJson? (dialect : Json.Dialect) : Json → Option Transport := Json.asNamed? dialect ofName?

end Transport

end PipelinePlan
