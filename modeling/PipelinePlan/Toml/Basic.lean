import PipelinePlan.Json.Basic

namespace PipelinePlan

namespace Toml

/-- How a table came to be, which decides whether later lines may add to it. -/
inductive Origin where
  /-- Written in braces. -/
  | inline
  /-- Defined by a header. -/
  | header
  /-- Implied by the header of a table inside it. -/
  | implied
  /-- Made by a dotted key. -/
  | dotted
  deriving DecidableEq, Repr

end Toml

inductive Toml where
  | text (value : String)
  | integer (value : Int)
  | float (mantissa exponent : Int)
  | bool (value : Bool)
  | moment (literal : String)
  | list (items : List Toml)
  | table (origin : Toml.Origin) (entries : List (String × Toml))
  | tables (elements : List (List (String × Toml)))
  deriving Inhabited

namespace Toml

abbrev Entries := List (String × Toml)

def replace (key : String) (value : Toml) (entries : Entries) : Entries :=
  entries.map fun entry => if entry.1 == key then (key, value) else entry

def remove (key : String) (entries : Entries) : Entries := entries.filter (·.1 != key)

/-- Changes the table at the end of a path. Tables that are missing on the way get the origin
`made`. Dotted keys do not lead into tables that have a header; a path leads into the last of an
array of tables. -/
def updateAt (made : Origin) (change : Origin → Entries → Option Entries) :
    List String → Origin → Entries → Option Entries
  | [], origin, entries => change origin entries
  | key :: path, _, entries =>
    match entries.lookup key with
    | none => do
      let inner ← updateAt made change path made []
      some (entries ++ [(key, .table made inner)])
    | some (.table origin inner) =>
      if origin == .inline || (made == .dotted && origin == .header) then none
      else do
        let inner ← updateAt made change path origin inner
        some (replace key (.table origin inner) entries)
    | some (.tables elements) =>
      match elements.getLast? with
      | none => none
      | some last => do
        let inner ← updateAt made change path .header last
        some (replace key (.tables (elements.dropLast ++ [inner])) entries)
    | some _ => none

/-- Adds a value under a new key. A dotted key ends in a table made by dotted keys only. -/
def addValue (key : String) (value : Toml) (dotted : Bool) (origin : Origin) (entries : Entries) :
    Option Entries :=
  if (origin == .dotted) != dotted || (entries.lookup key).isSome then none
  else some (entries ++ [(key, value)])

/-- Sets the value of a key, which may be dotted: `path` holds the parts before the last. -/
def setValue (path : List String) (key : String) (value : Toml) (entries : Entries) :
    Option Entries :=
  updateAt .dotted (addValue key value !path.isEmpty) path .header entries

/-- The entries that a table with a header starts with: those of a table that was only implied. -/
def openTable (key : String) (entries : Entries) : Option (Entries × Entries) :=
  match entries.lookup key with
  | none => some ([], entries)
  | some (.table .implied inner) => some (inner, remove key entries)
  | some _ => none

/-- Puts a table with a header in its place. -/
def closeTable (key : String) (inner : Entries) (_ : Origin) (entries : Entries) :
    Option Entries :=
  if (entries.lookup key).isSome then none else some (entries ++ [(key, .table .header inner)])

/-- Opens an array of tables, or finds it open. -/
def openTables (key : String) (_ : Origin) (entries : Entries) : Option Entries :=
  match entries.lookup key with
  | none => some (entries ++ [(key, .tables [])])
  | some (.tables _) => some entries
  | some _ => none

def pushTable (key : String) (inner : Entries) (_ : Origin) (entries : Entries) :
    Option Entries :=
  match entries.lookup key with
  | none => some (entries ++ [(key, .tables [inner])])
  | some (.tables elements) => some (replace key (.tables (elements ++ [inner])) entries)
  | some _ => none

/-- The document read so far: the tables that are complete, and the one that lines add to. -/
structure Document where
  root : Entries := []
  current : Entries := []
  /-- The header of the current table; without one it is the root itself. -/
  header : Option (List String × String) := none
  /-- Whether the current table is an element of an array. -/
  inArray : Bool := false

namespace Document

def finish (d : Document) : Option Entries :=
  match d.header with
  | none => some d.current
  | some (path, key) =>
    if d.inArray then updateAt .implied (pushTable key d.current) path .header d.root
    else updateAt .implied (closeTable key d.current) path .header d.root

def setValue (d : Document) (path : List String) (key : String) (value : Toml) :
    Option Document :=
  (Toml.setValue path key value d.current).map ({ d with current := · })

/-- The implied table that a header takes over, empty if there is none. -/
def takeOver (path : List String) (key : String) (root : Entries) : Option (Entries × Entries) := do
  let holder ← entriesAt path root
  let (inner, _) ← openTable key holder
  let root ← updateAt .implied (fun _ entries => (openTable key entries).map (·.2)) path .header root
  some (inner, root)
where
  /-- The entries at the end of a path, empty where the path leads nowhere yet. -/
  entriesAt : List String → Entries → Option Entries
    | [], entries => some entries
    | key :: path, entries =>
      match entries.lookup key with
      | none => some []
      | some (.table origin inner) => if origin == .inline then none else entriesAt path inner
      | some (.tables elements) => (elements.getLast?).bind (entriesAt path)
      | some _ => none

def startTable (d : Document) (path : List String) (key : String) : Option Document := do
  let root ← d.finish
  let (inner, root) ← takeOver path key root
  some { root, current := inner, header := some (path, key), inArray := false }

def startElement (d : Document) (path : List String) (key : String) : Option Document := do
  let root ← d.finish
  let root ← updateAt .implied (openTables key) path .header root
  some { root, current := [], header := some (path, key), inArray := true }

end Document

mutual

/-- The JSON value with the same content. A date is a record with its text, and numbers that are
not finite are zero. -/
def toJson : Toml → Json
  | text value => .text value
  | integer value => .number value 0
  | float mantissa exponent => .number mantissa exponent
  | bool value => .bool value
  | moment literal => .record [("date", .text literal)]
  | list items => .list (listToJson items)
  | table _ entries => .record (entriesToJson entries)
  | tables elements => .list (elementsToJson elements)

def listToJson : List Toml → List Json
  | [] => []
  | item :: items => item.toJson :: listToJson items

def entryToJson : String × Toml → String × Json
  | (key, value) => (key, value.toJson)

def entriesToJson : List (String × Toml) → List (String × Json)
  | [] => []
  | entry :: entries => entryToJson entry :: entriesToJson entries

def elementsToJson : List (List (String × Toml)) → List Json
  | [] => []
  | element :: elements => .record (entriesToJson element) :: elementsToJson elements

end

end Toml

end PipelinePlan
