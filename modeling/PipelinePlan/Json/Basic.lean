namespace PipelinePlan

/-- JSON values. The members of a record keep their order, so a value fixes its written form, and
`number m e` stands for `m · 10 ^ e`. -/
inductive Json where
  | null
  | bool (value : Bool)
  | number (mantissa exponent : Int)
  | text (value : String)
  | list (items : List Json)
  | record (members : List (String × Json))
  deriving Inhabited, BEq, Repr

namespace Json

def nat (n : Nat) : Json := .number n 0

def texts (values : List String) : Json := .list (values.map .text)

/-- An absent value is written as null. -/
def orNull : Option Json → Json
  | some value => value
  | none => .null

/-- The member for a value that is left out when absent. -/
def present (name : String) : Option Json → List (String × Json)
  | some value => [(name, value)]
  | none => []

/-- Of several members with one name the last counts. -/
def member? (name : String) (members : List (String × Json)) : Option Json :=
  (members.findRev? (·.1 == name)).map (·.2)

def asText? : Json → Option String
  | text value => some value
  | _ => none

def asBool? : Json → Option Bool
  | bool value => some value
  | _ => none

def asNat? : Json → Option Nat
  | number (.ofNat n) 0 => some n
  | _ => none

/-- A list whose items all decode. -/
def asList? {α : Type} (decode : Json → Option α) : Json → Option (List α)
  | list items => items.mapM decode
  | _ => none

def asOption? {α : Type} (decode : Json → Option α) : Json → Option (Option α)
  | null => some none
  | value => (decode value).map some

/-- The formats that values come from. They differ in what stands beside a name that says it all,
and in lists that are longer than the record they stand for. -/
inductive Dialect where
  | json
  | toml
  deriving DecidableEq, Repr

/-- Whether a value adds nothing to the name that it stands beside. -/
def Dialect.isVoid : Dialect → Json → Bool
  | json, null => true
  | toml, list [] => true
  | toml, record [] => true
  | _, _ => false

/-- Whether a list may be longer than the record it stands for. What is left over does not count. -/
def Dialect.allowsMore : Dialect → Bool
  | json => false
  | toml => true

/-- One of the values with a name, given by that name: as a text, or as a record with the name as
its only member and nothing more to say. -/
def asNamed? {α : Type} (dialect : Dialect) (ofName? : String → Option α) : Json → Option α
  | text name => ofName? name
  | record [(name, value)] => if dialect.isVoid value then ofName? name else none
  | _ => none

/-- The fields of a record are given by name, or as a list in the order of the fields. -/
inductive Fields where
  | named (members : List (String × Json))
  | listed (values : List Json)

/-- The fields of a record that has `count` of them. Unknown names are no error; a list that is
too long is one in some formats. -/
def fields? (dialect : Dialect) (count : Nat) : Json → Option Fields
  | record members => some (.named members)
  | list values =>
    if values.length ≤ count || dialect.allowsMore then some (.listed values) else none
  | _ => none

namespace Fields

/-- The value given for the field `name`, which is the one numbered `position`. -/
def find? (fields : Fields) (position : Nat) (name : String) : Option Json :=
  match fields with
  | named members => member? name members
  | listed values => values[position]?

def required {α : Type} (fields : Fields) (position : Nat) (name : String)
    (decode : Json → Option α) : Option α :=
  (fields.find? position name).bind decode

def withDefault {α : Type} (fields : Fields) (position : Nat) (name : String)
    (decode : Json → Option α) (default : α) : Option α :=
  match fields.find? position name with
  | some value => decode value
  | none => some default

/-- A field that may be absent or null. -/
def optional {α : Type} (fields : Fields) (position : Nat) (name : String)
    (decode : Json → Option α) : Option (Option α) :=
  fields.withDefault position name (asOption? decode) none

end Fields

end Json

end PipelinePlan
