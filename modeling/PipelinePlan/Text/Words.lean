namespace PipelinePlan.Text

/-- Whether a word starts at the letter or digit `c`, whose neighbours are `before` and `after`. -/
def startsWord (before c : Char) (after : Option Char) : Bool :=
  c.isUpper && (before.isLower || before.isDigit || (before.isUpper && after.any Char.isLower))

def consWord (c : Char) : List (List Char) → List (List Char)
  | [] => [[c]]
  | word :: rest => (c :: word) :: rest

def wordsOf : List Char → List (List Char)
  | [] => []
  | c :: cs =>
    if !c.isAlphanum then wordsOf cs
    else match cs with
      | [] => [[c]]
      | d :: ds =>
        if d.isAlphanum && !startsWord c d ds.head? then consWord c (wordsOf (d :: ds))
        else [c] :: wordsOf (d :: ds)

def words (s : String) : List String := (wordsOf s.toList).map String.ofList

def lowerWords (s : String) : List (List Char) := (wordsOf s.toList).map (·.map Char.toLower)

def kebab (s : String) : String := String.ofList (['-'].intercalate (lowerWords s))

def snake (s : String) : String := String.ofList (['_'].intercalate (lowerWords s))

/-- Drops what is neither letter nor digit and raises the next character after it, the first one
and one after a digit. -/
def pascalFrom (raise : Bool) : List Char → List Char
  | [] => []
  | c :: cs =>
    if c.isAlphanum then (if raise then c.toUpper else c) :: pascalFrom c.isDigit cs
    else pascalFrom true cs

def pascal (s : String) : String := String.ofList (pascalFrom true s.toList)

def tokenOf (cs : List Char) : List Char := (cs.filter Char.isAlphanum).map Char.toLower

/-- The letters and digits of a name in small letters: names with one token are taken for one
name. -/
def token (s : String) : String := String.ofList (tokenOf s.toList)

end PipelinePlan.Text
