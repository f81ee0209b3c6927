namespace PipelinePlan.Text

/-- What follows `p` in a text that starts with `p`. -/
def afterPrefix? (p s : String) : Option String :=
  (p.toList.isPrefixOf? s.toList).map String.ofList

/-- What precedes `p` in a text that ends with `p`. -/
def beforeSuffix? (p s : String) : Option String :=
  (p.toList.isSuffixOf? s.toList).map String.ofList

def startsWith (p s : String) : Bool := p.toList.isPrefixOf s.toList

def endsWith (p s : String) : Bool := p.toList.isSuffixOf s.toList

def dropPrefix (p s : String) : String := (afterPrefix? p s).getD s

def dropSuffix (p s : String) : String := (beforeSuffix? p s).getD s

def splitFirst? {α : Type} (p : α → Bool) (cs : List α) : Option (List α × List α) :=
  match cs.span (fun c => !p c) with
  | (_, []) => none
  | (before, _ :: after) => some (before, after)

def splitLast? {α : Type} (p : α → Bool) (cs : List α) : Option (List α × List α) :=
  (splitFirst? p cs.reverse).map fun (after, before) => (before.reverse, after.reverse)

/-- The part after the last character that satisfies `p`, or everything. -/
def afterLast {α : Type} (p : α → Bool) (cs : List α) : List α :=
  (cs.reverse.takeWhile (fun c => !p c)).reverse

/-- The pieces between the characters that satisfy `p`; always one more than there are of these. -/
def pieces {α : Type} (p : α → Bool) : List α → List (List α)
  | [] => [[]]
  | c :: cs =>
    if p c then [] :: pieces p cs
    else match pieces p cs with
      | [] => [[c]]
      | piece :: rest => (c :: piece) :: rest

/-- A line without the carriage return that may end it. -/
def dropReturn (line : List Char) : List Char :=
  match line.getLast? with
  | some '\r' => line.dropLast
  | _ => line

/-- The lines of a text. A line ends with a line feed or a carriage return and a line feed; what
follows the last line feed is a line if it is not empty. -/
def lines (cs : List Char) : List (List Char) :=
  let all := pieces (· == '\n') cs
  let last := all.getLast?.getD []
  all.dropLast.map dropReturn ++ if last.isEmpty then [] else [last]

/-- Whether `part` occurs in `whole` without a gap. -/
def occursIn {α : Type} [BEq α] (part : List α) : List α → Bool
  | [] => part.isEmpty
  | c :: cs => part.isPrefixOf (c :: cs) || occursIn part cs

end PipelinePlan.Text
