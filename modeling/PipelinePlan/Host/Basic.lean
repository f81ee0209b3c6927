import PipelinePlan.Host.FileSystem
import PipelinePlan.Wire.Record

namespace PipelinePlan

class Host (m : Type → Type) where
  readFile : String → m (Except FileError Wire.Bytes)
  writeFile : String → Wire.Bytes → m (Except FileError Unit)
  makeDirectory : String → m (Except FileError Unit)
  isDirectory : String → m Bool
  pathExists : String → m Bool
  /-- The name of the current directory, if it has one. -/
  currentName : m (Option String)
  print : String → m Unit

/-- Surroundings as a value: the files, and what has been printed. -/
structure World where
  files : FileSystem := {}
  printed : String := ""
  deriving DecidableEq, Repr

namespace World

def operate (f : FileSystem → Except FileError Unit × FileSystem) :
    StateM World (Except FileError Unit) :=
  fun w => ((f w.files).1, { w with files := (f w.files).2 })

/-- Runs a change of the files that is not made if it fails. -/
def change (f : FileSystem → Except FileError FileSystem) : StateM World (Except FileError Unit) :=
  fun w => match f w.files with
    | .ok files => (.ok (), { w with files })
    | .error e => (.error e, w)

instance : Host (StateM World) where
  readFile path := fun w => (w.files.readFile path, w)
  writeFile path content := operate (·.writeFile path content)
  makeDirectory path := change (·.makeDirectory path)
  isDirectory path := fun w => (w.files.isDirectory path, w)
  pathExists path := fun w => (w.files.pathExists path, w)
  currentName := fun w => (w.files.here.getLast?, w)
  print s := fun w => ((), { w with printed := w.printed ++ s })

end World

namespace Host

variable {m : Type → Type} [Monad m] [Host m]

def printLine (s : String) : m Unit := print (s ++ "\n")

def encodeText (s : String) : Wire.Bytes := s.toUTF8.data.toList

def writeText (path text : String) : m (Except FileError Unit) := writeFile path (encodeText text)

def readText (path : String) : m (Except FileError String) := do
  match ← readFile path with
  | .error e => return .error e
  | .ok bytes =>
    match Wire.utf8? bytes with
    | some text => return .ok text
    | none => return .error .notText

/-- An attempt to make a directory counts as a success if there is one. -/
def settleDirectory (path : String) (e : FileError) : m (Except FileError Unit) := do
  if ← isDirectory path then return .ok () else return .error e

/-- Makes the first directory of a list; the others are the ones above it, which are made when it
cannot do without. -/
def makeLineage : List String → m (Except FileError Unit)
  | [] => return .error (.other "failed to create whole tree")
  | path :: above => do
    if path.isEmpty then return .ok ()
    match ← makeDirectory path with
    | .ok () => return .ok ()
    | .error .notFound =>
      match ← makeLineage above with
      | .error e => return .error e
      | .ok () =>
        match ← makeDirectory path with
        | .ok () => return .ok ()
        | .error e => settleDirectory path e
    | .error e => settleDirectory path e

def makeDirectories (path : String) : m (Except FileError Unit) := makeLineage (Path.lineage path)

end Host

end PipelinePlan
