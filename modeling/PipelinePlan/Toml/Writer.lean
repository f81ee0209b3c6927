import PipelinePlan.Json.Writer

namespace PipelinePlan.Toml

def longestRun (mark : Char) (cs : List Char) : Nat :=
  (cs.foldl (fun (best, run) c =>
    let run := if c == mark then run + 1 else 0
    (max best run, run)) (0, 0)).1

/-- Control characters other than the tab and the line feed. -/
def needsCode (c : Char) : Bool :=
  (c.toNat < 0x20 && c != '\t' && c != '\n') || c.toNat == 0x7F

def upperHexDigit (n : Nat) : Char := (Json.hexDigit n).toUpper

def escapeCode (c : Char) : List Char :=
  ['\\', 'u', '0', '0', upperHexDigit (c.toNat / 16), upperHexDigit (c.toNat % 16)]

/-- Escapes a text in double quotes. Over several lines, line feeds stay and up to two quotes in a
row may stand; `run` counts the quotes right before. -/
def escapeFrom (long : Bool) (run : Nat) : List Char → List Char
  | [] => []
  | c :: cs =>
    if c == '"' then
      if (if long then 2 else 0) ≤ run then '\\' :: '"' :: escapeFrom long 0 cs
      else c :: escapeFrom long (run + 1) cs
    else
      let piece :=
        if c == '\x08' then ['\\', 'b']
        else if c == '\t' then ['\\', 't']
        else if c == '\n' then if long then [c] else ['\\', 'n']
        else if c == '\x0c' then ['\\', 'f']
        else if c == '\r' then ['\\', 'r']
        else if c == '\\' then ['\\', '\\']
        else if needsCode c then escapeCode c
        else [c]
      piece ++ escapeFrom long 0 cs

/-- A text between marks, on a line of its own start if it has several lines. -/
def between (mark : Char) (count : Nat) (lines : Bool) (body : List Char) : List Char :=
  let marks := List.replicate count mark
  marks ++ (if lines && count == 3 then ['\n'] else []) ++ body ++ marks

/-- A text stands in double quotes if nothing in it needs an escape, else in single quotes if it can,
and over several lines if it has several. -/
def quote (s : String) : String :=
  let cs := s.toList
  let codes := cs.any needsCode
  let backslash := cs.contains '\\'
  let lines := cs.contains '\n'
  let singles := longestRun '\'' cs
  let doubles := longestRun '"' cs
  String.ofList <|
    if !codes && !backslash && doubles == 0 && !lines then
      between '"' 1 lines (escapeFrom false 0 cs)
    else if !codes && singles == 0 && !lines then between '\'' 1 lines cs
    else if !codes && !backslash && doubles ≤ 2 then between '"' 3 lines (escapeFrom true 0 cs)
    else if !codes && singles ≤ 2 then between '\'' 3 lines cs
    else between '"' (if lines then 3 else 1) lines (escapeFrom lines 0 cs)

end PipelinePlan.Toml
