import PipelinePlan.Json.Basic

namespace PipelinePlan.Json

def hexDigit (n : Nat) : Char :=
  if n < 10 then Char.ofNat (48 + n) else Char.ofNat (87 + n)

def escapeChar (c : Char) : List Char :=
  if c == '"' then ['\\', '"']
  else if c == '\\' then ['\\', '\\']
  else if c == '\x08' then ['\\', 'b']
  else if c == '\t' then ['\\', 't']
  else if c == '\n' then ['\\', 'n']
  else if c == '\x0c' then ['\\', 'f']
  else if c == '\r' then ['\\', 'r']
  else if c.toNat < 0x20 then
    ['\\', 'u', '0', '0', hexDigit (c.toNat / 16), hexDigit (c.toNat % 16)]
  else [c]

def quote (s : String) : List Char := '"' :: (s.toList.flatMap escapeChar ++ ['"'])

def writeInt (n : Int) : List Char := (toString n).toList

def writeNumber (mantissa exponent : Int) : List Char :=
  if exponent == 0 then writeInt mantissa else writeInt mantissa ++ 'e' :: writeInt exponent

def newline (level : Nat) : List Char := '\n' :: List.replicate (2 * level) ' '

mutual

def write (level : Nat) : Json → List Char
  | null => "null".toList
  | bool true => "true".toList
  | bool false => "false".toList
  | number mantissa exponent => writeNumber mantissa exponent
  | text value => quote value
  | list [] => ['[', ']']
  | list (item :: items) =>
    '[' :: (newline (level + 1) ++ write (level + 1) item ++ writeItems (level + 1) items ++
      newline level ++ [']'])
  | record [] => ['{', '}']
  | record (member :: members) =>
    '{' :: (newline (level + 1) ++ writeMember (level + 1) member ++
      writeMembers (level + 1) members ++ newline level ++ ['}'])

def writeItems (level : Nat) : List Json → List Char
  | [] => []
  | item :: items => ',' :: (newline level ++ write level item ++ writeItems level items)

def writeMember (level : Nat) : String × Json → List Char
  | (name, value) => quote name ++ ':' :: ' ' :: write level value

def writeMembers (level : Nat) : List (String × Json) → List Char
  | [] => []
  | member :: members =>
    ',' :: (newline level ++ writeMember level member ++ writeMembers level members)

end

/-- One member or item a line, two blanks of indentation a level, no line feed at the end. -/
def pretty (value : Json) : String := String.ofList (write 0 value)

end PipelinePlan.Json
