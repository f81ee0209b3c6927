import PipelinePlan.Text.Affix

namespace PipelinePlan.Path

/-- The names of a path, empty ones and dots included. -/
def names (path : String) : List String :=
  (Text.pieces (· == '/') path.toList).map String.ofList

def isAbsolute (path : String) : Bool := Text.startsWith "/" path

def maxNameBytes : Nat := 255

def maxBytes : Nat := 4095

def maxLinks : Nat := 40

def hasNul (path : String) : Bool := path.toList.contains '\x00'

/-- A path without the slashes at its end, unless it is nothing else. -/
def dropSlashes (path : String) : String :=
  let bare := (path.toList.reverse.dropWhile (· == '/')).reverse
  if bare.isEmpty then path else String.ofList bare

/-- A path below another one. An absolute path stands for itself. -/
def join (base path : String) : String :=
  if isAbsolute path || base.isEmpty then path
  else if Text.endsWith "/" base then base ++ path
  else base ++ "/" ++ path

/-- Names that lead nowhere. -/
def isIdle (name : String) : Bool := name.isEmpty || name == "."

def dropIdleEnd (names : List String) : List String :=
  (names.reverse.dropWhile isIdle).reverse

def parent? (path : String) : Option String :=
  match names path with
  | [] => none
  | first :: rest =>
    if isAbsolute path then
      let body := dropIdleEnd rest
      if body.isEmpty then none else some ("/" ++ "/".intercalate (dropIdleEnd body.dropLast))
    else if first == "." then
      let body := dropIdleEnd rest
      if body.isEmpty then some ""
      else some ("/".intercalate ("." :: dropIdleEnd body.dropLast))
    else
      let body := dropIdleEnd (first :: rest)
      if body.isEmpty then none else some ("/".intercalate (dropIdleEnd body.dropLast))

/-- A path and what is above it, up to `count` levels. -/
def upwards : Nat → String → List String
  | 0, path => [path]
  | count + 1, path =>
    match parent? path with
    | some parent => path :: upwards count parent
    | none => [path]

/-- A path and all that is above it, the nearest first. -/
def lineage (path : String) : List String := upwards (names path).length path

end PipelinePlan.Path
