import PipelinePlan.Text.Affix
import PipelinePlan.Text.Blank

namespace PipelinePlan.Name

def isDot (c : Char) : Bool := c == '.'

/-- A name without the dots in front of it. -/
def relative (s : String) : String := String.ofList (s.toList.dropWhile isDot)

def simple (s : String) : String :=
  String.ofList (Text.afterLast isDot (s.toList.dropWhile isDot))

def space? (s : String) : Option String :=
  ((Text.splitLast? isDot (s.toList.dropWhile isDot)).map (·.1)).bind fun cs =>
    if cs.isEmpty then none else some (String.ofList cs)

def qualify (space name : String) : String :=
  if space.isEmpty then name else space ++ "." ++ name

/-- A blank name, `void` and `()` stand for the absence of a type. -/
def isVoid (s : String) : Bool :=
  let cs := Text.trimChars s.toList
  cs.isEmpty || cs.map Char.toLower == "void".toList || cs == "()".toList

/-- Drops the array marks at the end of a type; the characters come in reverse. -/
def dropArrayMarks : List Char → List Char
  | ']' :: '[' :: cs => dropArrayMarks cs
  | cs => cs

/-- The simple name of a type without type arguments and array marks. -/
def bareType (s : String) : String :=
  let head := Text.trimChars (s.toList.takeWhile (· != '<'))
  simple (String.ofList (dropArrayMarks head.reverse).reverse)

end PipelinePlan.Name
