import PipelinePlan.Host.Path
import PipelinePlan.Wire.Token

namespace PipelinePlan

inductive FileError where
  | notFound
  | denied
  | alreadyExists
  | notADirectory
  | isADirectory
  | noSpace
  /-- A name in a path, or the whole path, is too long. -/
  | nameTooLong
  | tooManyLinks
  /-- A path has the character with number zero in it. -/
  | nulInName
  | notText
  | other (message : String)
  deriving DecidableEq, Repr

def FileError.message : FileError → String
  | notFound => "No such file or directory (os error 2)"
  | denied => "Permission denied (os error 13)"
  | alreadyExists => "File exists (os error 17)"
  | notADirectory => "Not a directory (os error 20)"
  | isADirectory => "Is a directory (os error 21)"
  | noSpace => "No space left on device (os error 28)"
  | nameTooLong => "File name too long (os error 36)"
  | tooManyLinks => "Too many levels of symbolic links (os error 40)"
  | nulInName => "file name contained an unexpected NUL byte"
  | notText => "stream did not contain valid UTF-8"
  | other message => message

inductive Node where
  | file (content : Wire.Bytes)
  | directory
  deriving DecidableEq, Repr

abbrev Location := List String

inductive Link where
  | symbolic (target : String)
  /-- A further name of the file at a location. -/
  | hard (file : Location)
  deriving DecidableEq, Repr

inductive Access where
  /-- Going through a directory to its entries. -/
  | pass
  | read
  /-- Changing what a file holds, or which entries a directory has. -/
  | write
  deriving DecidableEq, Repr

/-- A file system as a value. Other programs do not change it meanwhile, and it has no devices or
pipes among its files. -/
structure FileSystem where
  nodes : List (Location × Node) := []
  /-- Where relative paths start. -/
  here : Location := []
  links : List (Location × Link) := []
  /-- What may not be done at a location, and the error that comes of it. -/
  refusals : List ((Access × Location) × FileError) := []
  /-- How many more bytes files can take up, if there is a limit. -/
  room : Option Nat := none
  deriving DecidableEq, Repr

namespace FileSystem

/-- What is at a location. The root is a directory. -/
def node? (fs : FileSystem) (location : Location) : Option Node :=
  if location.isEmpty then some .directory else fs.nodes.lookup location

def put (fs : FileSystem) (location : Location) (node : Node) : FileSystem :=
  if (fs.nodes.lookup location).isSome then
    { fs with nodes := fs.nodes.map fun entry =>
        if entry.1 == location then (location, node) else entry }
  else { fs with nodes := fs.nodes ++ [(location, node)] }

def requireDirectory (fs : FileSystem) (location : Location) : Except FileError Unit :=
  match fs.node? location with
  | some .directory => .ok ()
  | some (.file _) => .error .notADirectory
  | none => .error .notFound

def permit (fs : FileSystem) (access : Access) (location : Location) : Except FileError Unit :=
  match fs.refusals.lookup (access, location) with
  | some e => .error e
  | none => .ok ()

/-- What a name means in a directory: a location that is known, or an entry to look up. -/
inductive Move where
  | direct (location : Location)
  | entry (location : Location)

/-- The name between two slashes is empty and asks for no access. -/
def move (fs : FileSystem) (location : Location) (name : String) : Except FileError Move := do
  fs.requireDirectory location
  if name.isEmpty then .ok (.direct location)
  else
    fs.permit .pass location
    if name == "." then .ok (.direct location)
    else if name == ".." then .ok (.direct location.dropLast)
    else .ok (.entry (location ++ [name]))

/-- A file that is to be made has no slash after its name. -/
def checkName (creates : Bool) (name : String) (rest : List String) : Except FileError Unit :=
  if creates && !rest.isEmpty && rest.all (·.isEmpty) then .error .isADirectory
  else if Path.maxNameBytes < name.utf8ByteSize then .error .nameTooLong
  else .ok ()

/-- Where names lead from a location, whatever is there. What a symbolic link stands for is put in
front of the names after it and left to `expand`. -/
def walkWith (fs : FileSystem) (creates : Bool)
    (expand : Location → List String → Except FileError Location) :
    Location → List String → Except FileError Location
  | location, [] => .ok location
  | location, name :: rest => do
    match ← fs.move location name with
    | .direct next => walkWith fs creates expand next rest
    | .entry next =>
      checkName creates name rest
      match fs.links.lookup next with
      | none => walkWith fs creates expand next rest
      | some (.hard file) => walkWith fs creates expand file rest
      | some (.symbolic target) =>
        expand (if Path.isAbsolute target then [] else location) (Path.names target ++ rest)

/-- Where names lead with at most so many symbolic links on the way. -/
def walk (fs : FileSystem) (creates : Bool) :
    Nat → Location → List String → Except FileError Location
  | 0 => fs.walkWith creates fun _ _ => .error .tooManyLinks
  | links + 1 => fs.walkWith creates (fs.walk creates links)

def follow (fs : FileSystem) (creates : Bool) (path : String) (names : List String) :
    Except FileError Location :=
  if Path.hasNul path then .error .nulInName
  else if Path.maxBytes < path.utf8ByteSize then .error .nameTooLong
  else if path.isEmpty then .error .notFound
  else fs.walk creates Path.maxLinks (if Path.isAbsolute path then [] else fs.here) names

/-- The location that a path leads to, whether or not something is there. -/
def locate (fs : FileSystem) (creates : Bool) (path : String) : Except FileError Location :=
  fs.follow creates path (Path.names path)

def find? (fs : FileSystem) (path : String) : Except FileError Node := do
  let location ← fs.locate false path
  match fs.node? location with
  | some node => .ok node
  | none => .error .notFound

def readFile (fs : FileSystem) (path : String) : Except FileError Wire.Bytes := do
  let location ← fs.locate false path
  match fs.node? location with
  | none => .error .notFound
  | some node =>
    fs.permit .read location
    match node with
    | .file content => .ok content
    | .directory => .error .isADirectory

/-- A file that is there changes itself, and one that is made changes its directory. -/
def permitFile (fs : FileSystem) (location : Location) : Except FileError Unit :=
  match fs.node? location with
  | some .directory => .error .isADirectory
  | some (.file _) => fs.permit .write location
  | none => fs.permit .write location.dropLast

def spot (fs : FileSystem) (path : String) : Except FileError Location := do
  let location ← fs.locate true path
  fs.permitFile location
  .ok location

def size (fs : FileSystem) (location : Location) : Nat :=
  match fs.node? location with
  | some (.file content) => content.length
  | _ => 0

/-- Replaces what a file holds. What it held before is given up first, and as much is written as
there is room for. -/
def fill (fs : FileSystem) (location : Location) (content : Wire.Bytes) :
    Except FileError Unit × FileSystem :=
  match fs.room with
  | none => (.ok (), fs.put location (.file content))
  | some room =>
    let room := room + fs.size location
    if content.length ≤ room then
      (.ok (), { fs.put location (.file content) with room := some (room - content.length) })
    else
      (.error .noSpace, { fs.put location (.file (content.take room)) with room := some 0 })

def writeFile (fs : FileSystem) (path : String) (content : Wire.Bytes) :
    Except FileError Unit × FileSystem :=
  match fs.spot path with
  | .ok location => fs.fill location content
  | .error e => (.error e, fs)

/-- Makes a directory in one that is there. Slashes at the end of the path do not count, and a link
with its name is in the way. -/
def makeDirectory (fs : FileSystem) (path : String) : Except FileError FileSystem := do
  let names := Path.names (Path.dropSlashes path)
  let name := names.getLast?.getD ""
  let above ← fs.follow false path names.dropLast
  match ← fs.move above name with
  | .direct _ => .error .alreadyExists
  | .entry location =>
    checkName false name []
    if (fs.node? location).isSome || (fs.links.lookup location).isSome then
      .error .alreadyExists
    else
      fs.permit .write above
      .ok (fs.put location .directory)

def isDirectory (fs : FileSystem) (path : String) : Bool :=
  match fs.find? path with
  | .ok .directory => true
  | _ => false

def pathExists (fs : FileSystem) (path : String) : Bool :=
  match fs.find? path with
  | .ok _ => true
  | .error _ => false

/-- Takes away what is at a path and all that is below it. -/
def remove (fs : FileSystem) (path : String) : FileSystem :=
  match fs.locate false path with
  | .ok location =>
    { fs with
      nodes := fs.nodes.filter fun entry => !location.isPrefixOf entry.1
      links := fs.links.filter fun entry => !location.isPrefixOf entry.1 }
  | .error _ => fs

end FileSystem

end PipelinePlan
