import PipelinePlan.Wire.Record

namespace PipelinePlan.Schema

/-- A message and the messages that are declared inside it. -/
inductive MessageDescriptor where
  | mk (name : Option String) (nested : List MessageDescriptor)

structure MethodDescriptor where
  name : Option String := none
  inputType : Option String := none
  outputType : Option String := none
  clientStreaming : Option Bool := none
  serverStreaming : Option Bool := none

structure ServiceDescriptor where
  name : Option String := none
  methods : List MethodDescriptor := []

structure NamingOptions where
  package : Option String := none
  multipleFiles : Option Bool := none
  outerContainer : Option String := none

structure FileDescriptor where
  name : Option String := none
  package : Option String := none
  dependencies : List String := []
  messages : List MessageDescriptor := []
  enums : List (Option String) := []
  services : List ServiceDescriptor := []
  options : Option NamingOptions := none

mutual

def MessageDescriptor.ofValue? : Wire.Value → Option MessageDescriptor
  | .message fields => some (.mk (Wire.Record.text? 1 fields) (MessageDescriptor.nestedOf fields))
  | _ => none

def MessageDescriptor.nestedOf : List (Nat × Wire.Value) → List MessageDescriptor
  | [] => []
  | field :: fields =>
    (MessageDescriptor.ofField? field).toList ++ MessageDescriptor.nestedOf fields

def MessageDescriptor.ofField? : Nat × Wire.Value → Option MessageDescriptor
  | (number, value) => if number == 3 then MessageDescriptor.ofValue? value else none

end

def MessageDescriptor.ofRecord (r : Wire.Record) : MessageDescriptor :=
  .mk (r.text? 1) (MessageDescriptor.nestedOf r)

def MethodDescriptor.ofRecord (r : Wire.Record) : MethodDescriptor where
  name := r.text? 1
  inputType := r.text? 2
  outputType := r.text? 3
  clientStreaming := r.flag? 5
  serverStreaming := r.flag? 6

def ServiceDescriptor.ofRecord (r : Wire.Record) : ServiceDescriptor where
  name := r.text? 1
  methods := (r.messages 2).map MethodDescriptor.ofRecord

def NamingOptions.ofRecord (r : Wire.Record) : NamingOptions where
  package := r.text? 1
  multipleFiles := r.flag? 10
  outerContainer := r.text? 8

def FileDescriptor.ofRecord (r : Wire.Record) : FileDescriptor where
  name := r.text? 1
  package := r.text? 2
  dependencies := r.texts 3
  messages := (r.messages 4).map MessageDescriptor.ofRecord
  enums := (r.messages 5).map (·.text? 1)
  services := (r.messages 6).map ServiceDescriptor.ofRecord
  options := (r.merged? 8).map NamingOptions.ofRecord

def decodeSet? (bytes : Wire.Bytes) : Option (List FileDescriptor) :=
  (Wire.record? Wire.depthLimit .fileSet bytes).map fun set =>
    (set.messages 1).map FileDescriptor.ofRecord

end PipelinePlan.Schema
