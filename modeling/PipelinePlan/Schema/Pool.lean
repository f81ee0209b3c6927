import PipelinePlan.Schema.File
import PipelinePlan.Table

namespace PipelinePlan.Schema

/-- Files in the order in which they were built, and the number of passes that took. The tables give
the position of each file by its name, and of the first file that declares each message. -/
structure Pool where
  files : List File := []
  positions : Table Nat := ∅
  owners : Table Nat := ∅
  passes : Nat := 0

namespace Pool

def find? (pool : Pool) (name : String) : Option File :=
  (pool.positions.find? name).bind (pool.files[·]?)

def owner? (pool : Pool) (message : String) : Option File :=
  (pool.owners.find? message).bind (pool.files[·]?)

def servicesNamed (pool : Pool) (name : String) : List (File × Service) :=
  pool.files.flatMap fun file => (file.services.filter (·.name == name)).map ((file, ·))

def serviceNames (pool : Pool) : List String :=
  pool.files.flatMap fun file => file.services.map (·.name)

end Pool

/-- The positions below `size` that have not been seen. -/
def unseen (size : Nat) (seen : List Nat) : List Nat :=
  (List.range size).filter (!seen.contains ·)

theorem unseen_cons_lt {size i : Nat} {seen : List Nat} (hi : i < size)
    (hs : seen.contains i = false) :
    (unseen size (i :: seen)).length < (unseen size seen).length := by
  have hsub : unseen size (i :: seen) = (unseen size seen).filter (· != i) := by
    simp only [unseen, List.filter_filter]
    apply List.filter_congr
    intro j _
    by_cases h : j = i <;> simp [h]
  have hmem : i ∈ unseen size seen := by
    simp only [unseen, List.mem_filter, List.mem_range, hi, hs, Bool.not_false, and_self]
  rw [hsub]
  exact List.length_filter_lt_length_iff_exists.2 ⟨i, hmem, by simp⟩

/-- The types of all methods of a file with the service and method that use them, in order. -/
def File.usedTypes (file : File) : List (Service × Method × String) :=
  file.services.flatMap fun service => service.methods.flatMap fun method =>
    [(service, method, method.inputType), (service, method, method.outputType)]

namespace Pool

def positionsOf (pool : Pool) (names : List String) : List Nat :=
  names.filterMap pool.positions.find?

/-- Follows imports from the positions on the stack; `seen` holds the positions followed so
far. -/
def reach (pool : Pool) (seen stack : List Nat) : List Nat :=
  match stack with
  | [] => seen
  | i :: rest =>
    if h : i < pool.files.length then
      if hs : seen.contains i then reach pool seen rest
      else reach pool (i :: seen) (pool.positionsOf pool.files[i].dependencies ++ rest)
    else reach pool seen rest
termination_by ((unseen pool.files.length seen).length, stack.length)
decreasing_by
  · exact .right _ (by simp)
  · exact .left _ _ (unseen_cons_lt h (by simpa using hs))
  · exact .right _ (by simp)

/-- The positions of the files that a list of imports makes visible, directly or through other
files. -/
def visible (pool : Pool) (imports : List String) : List Nat :=
  pool.reach [] (pool.positionsOf imports)

/-- Makes the next position the owner of the messages of a file that have no owner. -/
def claim (pool : Pool) (file : File) : Pool :=
  { pool with
    owners := file.messages.foldl (·.insertNew · pool.files.length) pool.owners }

def append (pool : Pool) (file : File) : Pool :=
  { pool with
    files := pool.files ++ [file]
    positions := pool.positions.insert file.name pool.files.length }

/-- Whether a file may use a type: it declares it, or sees the first file that does. -/
def resolvable (pool : Pool) (seen : List Nat) (file : File) (type : String) : Bool :=
  file.declares type || (pool.owners.find? type).any seen.contains

def checkTypes (pool : Pool) (seen : List Nat) (file : File) : Except Error Unit :=
  match file.usedTypes.find? fun (_, _, type) => !pool.resolvable seen file type with
  | none => .ok ()
  | some (service, method, type) =>
    .error (.unknownMessage file.name service.name method.name type)

/-- Builds one more file. Its messages have owners before the types that it uses are checked, and it
is found by its name only after that. -/
def insert (pool : Pool) (file : File) : Except Error Pool := do
  let seen := pool.visible file.dependencies
  let pool := pool.claim file
  pool.checkTypes seen file
  .ok (pool.append file)

def ready (pool : Pool) (file : File) : Bool := file.dependencies.all pool.positions.contains

/-- One pass over the files that are left, each built if all its imports are, those built earlier in
the same pass included. -/
def pass (pool : Pool) : List File → Except Error (Pool × List File)
  | [] => .ok (pool, [])
  | file :: rest =>
    if pool.ready file then do
      let pool ← pool.insert file
      pass pool rest
    else do
      let (pool, left) ← pass pool rest
      .ok (pool, file :: left)

/-- At most `limit` further passes, the last of them one that builds nothing. -/
def settle : Nat → Pool → List File → Except Error (Pool × List File)
  | 0, pool, left => .ok (pool, left)
  | limit + 1, pool, left =>
    if left.isEmpty then .ok (pool, left)
    else do
      let (pool, left') ← { pool with passes := pool.passes + 1 }.pass left
      if left'.length == left.length then .ok (pool, left') else settle limit pool left'

/-- The imports that keep files from being built, sorted and each once. -/
def missingImports (pool : Pool) (left : List File) : List String :=
  sortedTexts <| left.flatMap fun file =>
    (file.dependencies.filter fun name => !pool.positions.contains name).map
      fun name => file.name ++ " -> " ++ name

end Pool

/-- The files of descriptors, whose names must be there and differ. -/
def filesFrom (position : Nat) (names : List String) :
    List FileDescriptor → Except Error (List File)
  | [] => .ok []
  | d :: rest => do
    let file ← File.ofDescriptor position d
    if names.contains file.name then .error (.duplicateFile file.name)
    else
      let files ← filesFrom (position + 1) (file.name :: names) rest
      .ok (file :: files)

def Pool.build (descriptors : List FileDescriptor) : Except Error Pool := do
  let files ← filesFrom 0 [] descriptors
  let (pool, left) ← settle (2 * files.length) {} files
  if left.isEmpty then .ok pool
  else .error (.unresolved (left.map (·.name)) (pool.missingImports left) pool.passes)

end PipelinePlan.Schema
