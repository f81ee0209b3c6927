import PipelinePlan.Text.Digits
import PipelinePlan.Toml.Basic

namespace PipelinePlan.Toml

abbrev Reader (α : Type) := List Char → Option (α × List Char)

def isSpace (c : Char) : Bool := c == ' ' || c == '\t'

def skipSpace (cs : List Char) : List Char := cs.dropWhile isSpace

/-- Characters that may stand in a comment or in a text on one line. -/
def isPlain (c : Char) : Bool := c == '\t' || (0x20 ≤ c.toNat && c.toNat != 0x7F)

def afterNewline? : List Char → Option (List Char)
  | '\n' :: rest => some rest
  | '\r' :: '\n' :: rest => some rest
  | _ => none

def readCodePoint (digits : Nat) : Reader Char := fun cs => do
  if cs.length < digits then none
  let n ← Text.hexNumber? (cs.take digits)
  if n.isValidChar then some (Char.ofNat n, cs.drop digits) else none

def readEscape : Reader Char
  | 'b' :: rest => some ('\x08', rest)
  | 't' :: rest => some ('\t', rest)
  | 'n' :: rest => some ('\n', rest)
  | 'f' :: rest => some ('\x0c', rest)
  | 'r' :: rest => some ('\r', rest)
  | '"' :: rest => some ('"', rest)
  | '\\' :: rest => some ('\\', rest)
  | 'u' :: rest => readCodePoint 4 rest
  | 'U' :: rest => readCodePoint 8 rest
  | _ => none

/-- The rest of a text in double quotes; `fuel` bounds its characters. -/
def readBasic : Nat → Reader (List Char)
  | 0, _ => none
  | fuel + 1, cs =>
    match cs with
    | '"' :: rest => some ([], rest)
    | '\\' :: rest => do
      let (c, rest) ← readEscape rest
      let (content, rest) ← readBasic fuel rest
      some (c :: content, rest)
    | c :: rest =>
      if !isPlain c then none
      else do
        let (content, rest) ← readBasic fuel rest
        some (c :: content, rest)
    | [] => none

def readLiteral (cs : List Char) : Option (List Char × List Char) :=
  match cs.span (fun c => isPlain c && c != '\'') with
  | (content, '\'' :: rest) => some (content, rest)
  | _ => none

def skipBlankLines : List Char → List Char
  | '\r' :: '\n' :: rest => skipBlankLines rest
  | c :: rest => if isSpace c || c == '\n' then skipBlankLines rest else c :: rest
  | [] => []

/-- What follows a backslash that ends a line: blanks, the end of the line, and all blanks and ends
of lines after it. -/
def afterFold? (cs : List Char) : Option (List Char) :=
  (afterNewline? (skipSpace cs)).map skipBlankLines

/-- The rest of a text over several lines that ends with three marks. One or two marks more before
them belong to the text. `escapes` says whether a backslash has a meaning. -/
def readLong (mark : Char) (escapes : Bool) : Nat → Reader (List Char)
  | 0, _ => none
  | fuel + 1, cs =>
    match cs with
    | [] => none
    | c :: rest =>
      if c == mark then
        match cs.span (· == mark) with
        | (marks, rest') =>
          if marks.length < 3 then do
            let (content, rest) ← readLong mark escapes fuel rest
            some (c :: content, rest)
          else if 5 < marks.length then none
          else some (marks.drop 3, rest')
      else if escapes && c == '\\' then
        match afterFold? rest with
        | some rest => readLong mark escapes fuel rest
        | none => do
          let (c, rest) ← readEscape rest
          let (content, rest) ← readLong mark escapes fuel rest
          some (c :: content, rest)
      else match afterNewline? cs with
        | some rest => do
          let (content, rest) ← readLong mark escapes fuel rest
          some ('\n' :: content, rest)
        | none =>
          if !isPlain c then none
          else do
            let (content, rest) ← readLong mark escapes fuel rest
            some (c :: content, rest)

def readLineText : Reader String
  | '"' :: rest => (readBasic (rest.length + 1) rest).map fun (t, rest) => (String.ofList t, rest)
  | '\'' :: rest => (readLiteral rest).map fun (t, rest) => (String.ofList t, rest)
  | _ => none

/-- A text. The end of the line right after three opening marks does not count. -/
def readText : Reader String := fun cs =>
  match cs with
  | '"' :: '"' :: '"' :: rest => long '"' true rest
  | '\'' :: '\'' :: '\'' :: rest => long '\'' false rest
  | _ => readLineText cs
where
  long (mark : Char) (escapes : Bool) (cs : List Char) : Option (String × List Char) :=
    let body := (afterNewline? cs).getD cs
    (readLong mark escapes (body.length + 1) body).map fun (t, rest) => (String.ofList t, rest)

/-- Digits of a kind, between which single underscores may stand. -/
def readDigitRun (isDigit : Char → Bool) (cs : List Char) : Option (List Char × List Char) :=
  match cs.span (fun c => isDigit c || c == '_') with
  | (run, rest) =>
    if run.isEmpty || run.head? == some '_' || run.getLast? == some '_' ||
        hasDouble run then none
    else some (run.filter (· != '_'), rest)
where
  /-- Whether two underscores stand side by side. -/
  hasDouble : List Char → Bool
    | '_' :: '_' :: _ => true
    | _ :: rest => hasDouble rest
    | [] => false

def readSign : List Char → Bool × List Char
  | '-' :: rest => (true, rest)
  | '+' :: rest => (false, rest)
  | rest => (false, rest)

def signed (negative : Bool) (n : Nat) : Int := if negative then -n else n

/-- Decimal digits without a zero in front of others. -/
def readWhole (cs : List Char) : Option (List Char × List Char) := do
  let (digits, rest) ← readDigitRun Char.isDigit cs
  if digits.head? == some '0' && digits.length != 1 then none else some (digits, rest)

def valueIn (base : Nat) (digits : List Char) : Nat :=
  digits.foldl (fun n c => n * base + (Text.hexValue? c).getD 0) 0

/-- Integers have 64 bits. -/
def isIn64 (n : Int) : Bool := -0x8000000000000000 ≤ n && n < 0x8000000000000000

def readBased (base : Nat) (isDigit : Char → Bool) (cs : List Char) :
    Option (Toml × List Char) := do
  let (digits, rest) ← readDigitRun isDigit cs
  let n : Int := valueIn base digits
  if isIn64 n then some (.integer n, rest) else none

def readInteger (cs : List Char) : Option (Toml × List Char) :=
  match cs with
  | '0' :: 'x' :: rest => readBased 16 (fun c => (Text.hexValue? c).isSome) rest
  | '0' :: 'o' :: rest => readBased 8 (fun c => '0' ≤ c && c ≤ '7') rest
  | '0' :: 'b' :: rest => readBased 2 (fun c => c == '0' || c == '1') rest
  | _ => do
    let (negative, rest) := readSign cs
    let (digits, rest) ← readWhole rest
    let n := signed negative (Text.decimalValue digits)
    if isIn64 n then some (.integer n, rest) else none

def readExponent : List Char → Option (Int × List Char)
  | c :: rest =>
    if c == 'e' || c == 'E' then do
      let (negative, rest) := readSign rest
      let (digits, rest) ← readDigitRun Char.isDigit rest
      some (signed negative (Text.decimalValue digits), rest)
    else none
  | [] => none

/-- The least number that is rounded to infinity: floats have 64 bits, and a number halfway between
the greatest of them and the next power of two goes up. -/
def floatLimit : Nat := Nat.pow 2 1024 - Nat.pow 2 970

/-- Whether `digits · 10 ^ exponent` is rounded to infinity. The limit has 309 digits, so the number
of digits decides unless it is the same. -/
def overflows (digits : List Char) (exponent : Int) : Bool :=
  let significant := digits.dropWhile (· == '0')
  let length : Int := significant.length + exponent
  if significant.isEmpty || length < 309 then false
  else if 309 < length then true
  else
    let n := Text.decimalValue significant
    match exponent with
    | .ofNat up => floatLimit ≤ n * Nat.pow 10 up
    | .negSucc down => floatLimit * Nat.pow 10 (down + 1) ≤ n

/-- The float `digits · 10 ^ exponent` with a sign. Only a negative one may be too large. -/
def float? (negative : Bool) (digits : List Char) (exponent : Int) : Option Toml :=
  if !negative && overflows digits exponent then none
  else some (.float (signed negative (Text.decimalValue digits)) exponent)

/-- A number with a fraction, a power of ten or both, or one that is not finite. -/
def readFloat (cs : List Char) : Option (Toml × List Char) :=
  let (negative, unsigned) := readSign cs
  match unsigned with
  | 'i' :: 'n' :: 'f' :: rest => some (.float 0 0, rest)
  | 'n' :: 'a' :: 'n' :: rest => some (.float 0 0, rest)
  | _ => do
    let (whole, rest) ← readWhole unsigned
    match rest with
    | '.' :: rest =>
      let (fraction, rest) ← readDigitRun Char.isDigit rest
      let (exponent, rest) := (readExponent rest).getD (0, rest)
      let value ← float? negative (whole ++ fraction) (exponent - fraction.length)
      some (value, rest)
    | _ =>
      let (exponent, rest) ← readExponent rest
      let value ← float? negative whole exponent
      some (value, rest)

/-- A number of so many digits within bounds. -/
def readField (width low high : Nat) (cs : List Char) : Option (Nat × List Char) :=
  let digits := cs.take width
  let n := Text.decimalValue digits
  if digits.length == width && digits.all Char.isDigit && low ≤ n && n ≤ high then
    some (n, cs.drop width)
  else none

def expect (c : Char) : List Char → Option (List Char)
  | d :: rest => if d == c then some rest else none
  | [] => none

def isLeapYear (year : Nat) : Bool := year % 4 == 0 && (year % 100 != 0 || year % 400 == 0)

def daysIn (year month : Nat) : Nat :=
  if month == 2 then if isLeapYear year then 29 else 28
  else if [4, 6, 9, 11].contains month then 30 else 31

def afterDate? (cs : List Char) : Option (List Char) := do
  let (year, rest) ← readField 4 0 9999 cs
  let rest ← expect '-' rest
  let (month, rest) ← readField 2 1 12 rest
  let rest ← expect '-' rest
  let (_, rest) ← readField 2 1 (daysIn year month) rest
  some rest

def afterTime? (cs : List Char) : Option (List Char) := do
  let (_, rest) ← readField 2 0 23 cs
  let rest ← expect ':' rest
  let (_, rest) ← readField 2 0 59 rest
  let rest ← expect ':' rest
  let (_, rest) ← readField 2 0 60 rest
  match rest with
  | '.' :: d :: more => if d.isDigit then some (more.dropWhile Char.isDigit) else some rest
  | _ => some rest

def afterOffset? : List Char → Option (List Char)
  | 'Z' :: rest | 'z' :: rest => some rest
  | c :: rest =>
    if c == '+' || c == '-' then do
      let (_, rest) ← readField 2 0 23 rest
      let rest ← expect ':' rest
      let (_, rest) ← readField 2 0 59 rest
      some rest
    else none
  | [] => none

def afterMoment? (cs : List Char) : Option (List Char) :=
  match afterDate? cs with
  | some rest =>
    match rest with
    | c :: more =>
      if c == 'T' || c == 't' || c == ' ' then
        match afterTime? more with
        | some rest => some ((afterOffset? rest).getD rest)
        | none => some rest
      else some rest
    | [] => some []
  | none => afterTime? cs

def readMoment (cs : List Char) : Option (Toml × List Char) :=
  (afterMoment? cs).map fun rest =>
    (.moment (String.ofList (cs.take (cs.length - rest.length))), rest)

def readNumeric (cs : List Char) : Option (Toml × List Char) :=
  match readMoment cs with
  | some result => some result
  | none =>
    match readFloat cs with
    | some result => some result
    | none => readInteger cs

end PipelinePlan.Toml
