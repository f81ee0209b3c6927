import PipelinePlan.Toml.Scalar

namespace PipelinePlan.Toml

def skipComment : List Char → List Char
  | '#' :: rest => rest.dropWhile isPlain
  | rest => rest

/-- Blanks, comments and ends of lines, as they may stand between the items of a list. -/
def skipGaps : Nat → List Char → List Char
  | 0, cs => cs
  | fuel + 1, cs =>
    let rest := skipComment (skipSpace cs)
    match afterNewline? rest with
    | some rest => skipGaps fuel rest
    | none => rest

def isBare (c : Char) : Bool := c.isAlphanum || c == '_' || c == '-'

def readKeyPart (cs : List Char) : Option (String × List Char) :=
  match cs with
  | '"' :: _ | '\'' :: _ => readLineText cs
  | _ =>
    match cs.span isBare with
    | ([], _) => none
    | (key, rest) => some (String.ofList key, rest)

/-- How many lists and tables may be open at once in a value, and how many parts a key may have. -/
def depthLimit : Nat := 79

/-- The parts of a key with dots between them, at most `limit` of them. -/
def readKeyParts : Nat → List Char → Option (List String × List Char)
  | 0, _ => none
  | limit + 1, cs => do
    let (part, rest) ← readKeyPart (skipSpace cs)
    let rest := skipSpace rest
    match rest with
    | '.' :: rest =>
      let (parts, rest) ← readKeyParts limit rest
      some (part :: parts, rest)
    | _ => some ([part], rest)

def readKey (cs : List Char) : Option ((List String × String) × List Char) := do
  let (parts, rest) ← readKeyParts depthLimit cs
  let last ← parts.getLast?
  some ((parts.dropLast, last), rest)

mutual

/-- A value, in which `depth` lists and tables may be open at once; `fuel` bounds the readers. -/
def readValue : Nat → Nat → List Char → Option (Toml × List Char)
  | 0, _, _ => none
  | fuel + 1, depth, cs =>
    match cs with
    | [] => none
    | '"' :: _ | '\'' :: _ => (readText cs).map fun (s, rest) => (.text s, rest)
    | '[' :: rest =>
      if depth == 0 then none
      else (readItems fuel (depth - 1) rest).map fun (items, rest) => (.list items, rest)
    | '{' :: rest =>
      if depth == 0 then none
      else (readInline fuel (depth - 1) rest).map fun (es, rest) => (.table .inline es, rest)
    | 't' :: 'r' :: 'u' :: 'e' :: rest => some (.bool true, rest)
    | 'f' :: 'a' :: 'l' :: 's' :: 'e' :: rest => some (.bool false, rest)
    | _ => readNumeric cs

/-- The items of a list and its closing bracket. A comma may follow the last item. -/
def readItems : Nat → Nat → List Char → Option (List Toml × List Char)
  | 0, _, _ => none
  | fuel + 1, depth, cs =>
    match skipGaps cs.length cs with
    | ']' :: rest => some ([], rest)
    | cs => do
      let (item, rest) ← readValue fuel depth cs
      match skipGaps rest.length rest with
      | ']' :: rest => some ([item], rest)
      | ',' :: rest =>
        let (items, rest) ← readItems fuel depth rest
        some (item :: items, rest)
      | _ => none

def readInline : Nat → Nat → List Char → Option (Entries × List Char)
  | 0, _, _ => none
  | fuel + 1, depth, cs =>
    match skipSpace cs with
    | '}' :: rest => some ([], rest)
    | cs => readPairs fuel depth [] cs

def readPairs : Nat → Nat → Entries → List Char → Option (Entries × List Char)
  | 0, _, _, _ => none
  | fuel + 1, depth, entries, cs => do
    let ((path, key), rest) ← readKey cs
    match rest with
    | '=' :: rest =>
      let (value, rest) ← readValue fuel depth (skipSpace rest)
      let entries ← setValue path key value entries
      match skipSpace rest with
      | '}' :: rest => some (entries, rest)
      | ',' :: rest => readPairs fuel depth entries rest
      | _ => none
    | _ => none

end

/-- What follows the end of a line, where a comment may stand; nothing is left at the end of the
text. -/
def afterLine? (cs : List Char) : Option (List Char) :=
  match skipComment (skipSpace cs) with
  | [] => some []
  | rest => afterNewline? rest

/-- The header of a table, after its opening brackets and up to `brackets` closing ones. -/
def readHeader (brackets : Nat) (cs : List Char) : Option ((List String × String) × List Char) := do
  let (key, rest) ← readKey cs
  if rest.take brackets == List.replicate brackets ']' then some (key, rest.drop brackets) else none

def readLine (d : Document) (cs : List Char) : Option (Document × List Char) :=
  match skipSpace cs with
  | '[' :: '[' :: rest => do
    let ((path, key), rest) ← readHeader 2 rest
    let d ← d.startElement path key
    let rest ← afterLine? rest
    some (d, rest)
  | '[' :: rest => do
    let ((path, key), rest) ← readHeader 1 rest
    let d ← d.startTable path key
    let rest ← afterLine? rest
    some (d, rest)
  | cs =>
    match afterLine? cs with
    | some rest => some (d, rest)
    | none => do
      let ((path, key), rest) ← readKey cs
      match rest with
      | '=' :: rest =>
        let (value, rest) ← readValue (2 * rest.length + 2) depthLimit (skipSpace rest)
        let d ← d.setValue path key value
        let rest ← afterLine? rest
        some (d, rest)
      | _ => none

def readLines : Nat → Document → List Char → Option Document
  | _, d, [] => some d
  | 0, _, _ => none
  | fuel + 1, d, cs => do
    let (d, rest) ← readLine d cs
    readLines fuel d rest

/-- A text without the mark that may stand in front of it to tell its encoding. -/
def dropMark : List Char → List Char
  | '\uFEFF' :: rest => rest
  | cs => cs

/-- The document that a text holds, as a JSON record. -/
def parse? (s : String) : Option Json := do
  let cs := dropMark s.toList
  let d ← readLines cs.length {} cs
  let entries ← d.finish
  some (toJson (.table .header entries))

end PipelinePlan.Toml
