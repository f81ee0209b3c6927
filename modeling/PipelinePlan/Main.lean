import PipelinePlan.Command.Program

namespace PipelinePlan

/-- The error that a system code stands for, with either sign. -/
def FileError.ofCode (code : UInt32) (e : IO.Error) : FileError :=
  let code := min code (0 - code)
  if code == 2 then .notFound
  else if code == 13 then .denied
  else if code == 17 then .alreadyExists
  else if code == 20 then .notADirectory
  else if code == 21 then .isADirectory
  else if code == 28 then .noSpace
  else if code == 36 then .nameTooLong
  else if code == 40 then .tooManyLinks
  else .other (toString e)

def FileError.ofSystem (e : IO.Error) : FileError :=
  match e with
  | .noFileOrDirectory _ code _ => .ofCode code e
  | .permissionDenied _ code _ => .ofCode code e
  | .resourceExhausted _ code _ => .ofCode code e
  | .alreadyExists _ code _ => .ofCode code e
  | .inappropriateType _ code _ => .ofCode code e
  | .invalidArgument _ code _ => .ofCode code e
  | _ => .other (toString e)

/-- Failures of the system become values. The system never sees a path that it would cut short. -/
def attempt {α : Type} (path : String) (action : IO α) : IO (Except FileError α) := do
  if Path.hasNul path then return .error .nulInName
  try return .ok (← action)
  catch e => return .error (.ofSystem e)

instance : Host IO where
  readFile path := attempt path do return (← IO.FS.readBinFile path).data.toList
  writeFile path content := attempt path (IO.FS.writeBinFile path ⟨content.toArray⟩)
  makeDirectory path := attempt path (IO.FS.createDir path)
  isDirectory path := do return !Path.hasNul path && (← ((← IO.currentDir) / path).isDir)
  pathExists path := do return !Path.hasNul path && (← ((← IO.currentDir) / path).pathExists)
  currentName := do return (← IO.currentDir).fileName
  print := IO.print

end PipelinePlan

def main (args : List String) : IO UInt32 := do
  let ending ← PipelinePlan.Command.run (m := IO) args
  IO.eprint ending.complaint
  return ending.status.toUInt32
