import PipelinePlan.Wire.Layout
import PipelinePlan.Wire.Token

namespace PipelinePlan.Wire

/-- The value of a known field. Values that no reader asks for are only checked. -/
inductive Value where
  | number (value : Nat)
  | text (value : String)
  | unread
  | message (fields : List (Nat × Value))

abbrev Record := List (Nat × Value)

def utf8? (bytes : Bytes) : Option String := String.fromUTF8? ⟨bytes.toArray⟩

/-- Whether bytes are varints without a rest. -/
def arePacked : Nat → Bytes → Bool
  | _, [] => true
  | 0, _ => false
  | fuel + 1, bytes =>
    match readVarint bytes with
    | some (_, rest) => arePacked fuel rest
    | none => false

/-- The value of a known field. A list of numbers may come one by one or packed together. -/
def readValue (nested : Layout → Bytes → Option Record) : FieldKind → Payload → Option Value
  | .number, .varint n => some (.number n)
  | .numbers, .varint n => some (.number n)
  | .numbers, .delimited bytes => if arePacked bytes.length bytes then some .unread else none
  | .double, .fixed64 _ => some .unread
  | .text, .delimited bytes => (utf8? bytes).map .text
  | .bytes, .delimited _ => some .unread
  | .message layout, .delimited bytes => (nested layout bytes).map .message
  | _, _ => none

/-- The known fields among the tokens. `groups` holds the numbers of the groups that are open, the
innermost first, and `depth` is how many levels are left below this message. -/
def readFields (layout : Layout) (depth : Nat) (nested : Layout → Bytes → Option Record) :
    List Nat → List Token → Option Record
  | [], [] => some []
  | _ :: _, [] => none
  | [], ⟨number, payload⟩ :: rest =>
    match layout.field? number with
    | some kind => do
      let value ← readValue nested kind payload
      let fields ← readFields layout depth nested [] rest
      some ((number, value) :: fields)
    | none =>
      if depth == 0 then none
      else match payload with
        | .groupEnd => none
        | .groupStart => readFields layout depth nested [number] rest
        | _ => readFields layout depth nested [] rest
  | group :: groups, ⟨number, payload⟩ :: rest =>
    match payload with
    | .groupEnd => if number == group then readFields layout depth nested groups rest else none
    | .groupStart =>
      if groups.length + 1 < depth then
        readFields layout depth nested (number :: group :: groups) rest
      else none
    | _ =>
      if groups.length + 1 < depth then readFields layout depth nested (group :: groups) rest
      else none

/-- The record that bytes hold, with messages nested at most `depth` deep below it. -/
def record? : Nat → Layout → Bytes → Option Record
  | 0, layout, bytes => (tokens? bytes).bind (readFields layout 0 (fun _ _ => none) [])
  | depth + 1, layout, bytes =>
    (tokens? bytes).bind (readFields layout (depth + 1) (record? depth) [])

/-- How deep messages may nest. -/
def depthLimit : Nat := 100

namespace Record

def texts (number : Nat) (r : Record) : List String :=
  r.filterMap fun
    | (n, .text s) => if n == number then some s else none
    | _ => none

/-- Of several texts for a field that takes one, the last counts. -/
def text? (number : Nat) (r : Record) : Option String := (r.texts number).getLast?

def numbers (number : Nat) (r : Record) : List Nat :=
  r.filterMap fun
    | (n, .number value) => if n == number then some value else none
    | _ => none

/-- A flag is set by any number but zero. -/
def flag? (number : Nat) (r : Record) : Option Bool := (r.numbers number).getLast?.map (· != 0)

def messages (number : Nat) (r : Record) : List Record :=
  r.filterMap fun
    | (n, .message fields) => if n == number then some fields else none
    | _ => none

/-- A message that comes in several parts has the fields of all of them. -/
def merged? (number : Nat) (r : Record) : Option Record :=
  match r.messages number with
  | [] => none
  | parts => some parts.flatten

end Record

end PipelinePlan.Wire
