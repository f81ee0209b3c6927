namespace PipelinePlan.Wire

/-- The kinds of messages inside a descriptor set. -/
inductive Layout where
  | fileSet
  | file
  | message
  | extensionRange
  | range
  | field
  | oneof
  | enum
  | enumValue
  | service
  | method
  | fileOptions
  | messageOptions
  | fieldOptions
  | enumOptions
  | enumValueOptions
  | serviceOptions
  | methodOptions
  | plainOptions
  | option
  | optionName
  | sourceInfo
  | location
  deriving DecidableEq, Repr

/-- The kinds of values a field can have. Flags and enumerated values are numbers. -/
inductive FieldKind where
  | number
  | numbers
  | double
  | text
  | bytes
  | message (layout : Layout)
  deriving DecidableEq, Repr

/-- The number that all kinds of options give to the options they do not know. -/
def otherOptions : Nat := 999

namespace Layout

def fileField? : Nat → Option FieldKind
  | 1 | 2 | 3 | 12 => some .text
  | 4 => some (.message message)
  | 5 => some (.message enum)
  | 6 => some (.message service)
  | 7 => some (.message field)
  | 8 => some (.message fileOptions)
  | 9 => some (.message sourceInfo)
  | 10 | 11 => some .numbers
  | _ => none

def messageField? : Nat → Option FieldKind
  | 1 | 10 => some .text
  | 2 | 6 => some (.message field)
  | 3 => some (.message message)
  | 4 => some (.message enum)
  | 5 => some (.message extensionRange)
  | 7 => some (.message messageOptions)
  | 8 => some (.message oneof)
  | 9 => some (.message range)
  | _ => none

def fieldField? : Nat → Option FieldKind
  | 1 | 2 | 6 | 7 | 10 => some .text
  | 3 | 4 | 5 | 9 | 17 => some .number
  | 8 => some (.message fieldOptions)
  | _ => none

def fileOptionsField? : Nat → Option FieldKind
  | 1 | 8 | 11 | 36 | 37 | 39 | 40 | 41 | 44 | 45 => some .text
  | 9 | 10 | 16 | 17 | 18 | 20 | 23 | 27 | 31 | 42 => some .number
  | 999 => some (.message option)
  | _ => none

/-- Options whose own fields are all numbers. -/
def optionsField? (own : List Nat) (n : Nat) : Option FieldKind :=
  if own.contains n then some .number
  else if n == otherOptions then some (.message option)
  else none

/-- A field that stands here must have its kind wherever it occurs; all other fields are passed
over. -/
def field? : Layout → Nat → Option FieldKind
  | fileSet, n => if n == 1 then some (.message file) else none
  | file, n => fileField? n
  | message, n => messageField? n
  | extensionRange, n =>
    match n with
    | 1 | 2 => some .number
    | 3 => some (.message plainOptions)
    | _ => none
  | range, n => if n == 1 || n == 2 then some .number else none
  | field, n => fieldField? n
  | oneof, n =>
    match n with
    | 1 => some .text
    | 2 => some (.message plainOptions)
    | _ => none
  | enum, n =>
    match n with
    | 1 | 5 => some .text
    | 2 => some (.message enumValue)
    | 3 => some (.message enumOptions)
    | 4 => some (.message range)
    | _ => none
  | enumValue, n =>
    match n with
    | 1 => some .text
    | 2 => some .number
    | 3 => some (.message enumValueOptions)
    | _ => none
  | service, n =>
    match n with
    | 1 => some .text
    | 2 => some (.message method)
    | 3 => some (.message serviceOptions)
    | _ => none
  | method, n =>
    match n with
    | 1 | 2 | 3 => some .text
    | 4 => some (.message methodOptions)
    | 5 | 6 => some .number
    | _ => none
  | fileOptions, n => fileOptionsField? n
  | messageOptions, n => optionsField? [1, 2, 3, 7] n
  | fieldOptions, n => optionsField? [1, 2, 3, 5, 6, 10] n
  | enumOptions, n => optionsField? [2, 3] n
  | enumValueOptions, n => optionsField? [1] n
  | serviceOptions, n => optionsField? [33] n
  | methodOptions, n => optionsField? [33, 34] n
  | plainOptions, n => optionsField? [] n
  | option, n =>
    match n with
    | 2 => some (.message optionName)
    | 3 | 8 => some .text
    | 4 | 5 => some .number
    | 6 => some .double
    | 7 => some .bytes
    | _ => none
  | optionName, n =>
    match n with
    | 1 => some .text
    | 2 => some .number
    | _ => none
  | sourceInfo, n => if n == 1 then some (.message location) else none
  | location, n =>
    match n with
    | 1 | 2 => some .numbers
    | 3 | 4 | 6 => some .text
    | _ => none

end Layout

end PipelinePlan.Wire
