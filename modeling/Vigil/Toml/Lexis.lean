import Vigil.Decimal.Integer
import Vigil.Decimal.Nearest
import Vigil.Json.Reader
/-!
# Words of TOML

The readers of this module take a word from the front of a text and leave the
rest: blanks and comments, the four kinds of strings, numbers, and dates.
-/

namespace Vigil.Toml

/-- Takes something from the front of a text, or fails. -/
abbrev Reader (β : Type) := List Char → Option (β × List Char)

def isSpace (c : Char) : Bool := c == ' ' || c == '\t'

def skipSpace (cs : List Char) : List Char := cs.dropWhile isSpace

/-- A character that may stand in a comment, and so anywhere on a line. -/
def isLineChar (c : Char) : Bool :=
  c == '\t' || (0x20 ≤ c.toNat && c.toNat != 0x7F)

def skipComment (cs : List Char) : List Char :=
  match cs with
  | '#' :: cs => cs.dropWhile isLineChar
  | cs => cs

/-- What follows the end of the line, after blanks and a comment. -/
def endLine? (cs : List Char) : Option (List Char) :=
  match skipComment (skipSpace cs) with
  | [] => some []
  | '\n' :: cs => some cs
  | '\r' :: '\n' :: cs => some cs
  | _ => none

/-- Skips blanks, ends of lines and comments. -/
def skipLines (inComment : Bool) : List Char → List Char
  | [] => []
  | '\r' :: '\n' :: cs => skipLines false cs
  | c :: cs =>
    if inComment && isLineChar c then skipLines true cs
    else if isSpace c || c == '\n' then skipLines false cs
    else if c == '#' then skipLines true cs
    else c :: cs

/-! ## Strings -/

/-- The character of a code point, unless that is a surrogate or too great. -/
def scalar? (n : Nat) : Option Char :=
  if n.isValidChar then some (Char.ofNat n) else none

def hexEight? (a b c d e f g h : Char) : Option Nat := do
  let high ← Json.hexFour? a b c d
  let low ← Json.hexFour? e f g h
  return high * 0x10000 + low

def escape? : Char → Option Char
  | 'b' => some '\x08'
  | 't' => some '\t'
  | 'n' => some '\n'
  | 'f' => some '\x0c'
  | 'r' => some '\r'
  | '"' => some '"'
  | '\\' => some '\\'
  | _ => none

def prepend (c : Option Char) (rest : Option (List Char × List Char)) :
    Option (List Char × List Char) := do
  let c ← c
  let (text, cs) ← rest
  return (c :: text, cs)

/-- The rest of a basic string after its opening quote. -/
def readBasic : Reader (List Char)
  | [] => none
  | '"' :: cs => some ([], cs)
  | '\\' :: 'u' :: a :: b :: c :: d :: cs =>
    prepend ((Json.hexFour? a b c d).bind scalar?) (readBasic cs)
  | '\\' :: 'U' :: a :: b :: c :: d :: e :: f :: g :: h :: cs =>
    prepend ((hexEight? a b c d e f g h).bind scalar?) (readBasic cs)
  | '\\' :: c :: cs => prepend (escape? c) (readBasic cs)
  | c :: cs => if isLineChar c then prepend (some c) (readBasic cs) else none

def readLiteral : Reader (List Char)
  | [] => none
  | '\'' :: cs => some ([], cs)
  | c :: cs => if isLineChar c then prepend (some c) (readLiteral cs) else none

/-- Up to two quotes that stand directly before the closing three. -/
def readClosing (quote : Char) (cs : List Char) : List Char × List Char :=
  let extra := min 2 (cs.takeWhile (· == quote)).length
  (List.replicate extra quote, cs.drop extra)

def endsLine (cs : List Char) : Bool :=
  match skipSpace cs with
  | '\n' :: _ => true
  | '\r' :: '\n' :: _ => true
  | _ => false

/-- The rest of a basic string of many lines.  A backslash at the end of a line
leaves out all blanks and line ends up to the next visible character. -/
def readLongBasic (trimming : Bool) : Reader (List Char)
  | [] => none
  | '"' :: '"' :: '"' :: cs => some (readClosing '"' cs)
  | '\r' :: '\n' :: cs =>
    if trimming then readLongBasic true cs else prepend (some '\n') (readLongBasic false cs)
  | '\\' :: 'u' :: a :: b :: c :: d :: cs =>
    prepend ((Json.hexFour? a b c d).bind scalar?) (readLongBasic false cs)
  | '\\' :: 'U' :: a :: b :: c :: d :: e :: f :: g :: h :: cs =>
    prepend ((hexEight? a b c d e f g h).bind scalar?) (readLongBasic false cs)
  | '\\' :: c :: cs =>
    if endsLine (c :: cs) then readLongBasic true (c :: cs)
    else prepend (escape? c) (readLongBasic false cs)
  | c :: cs =>
    if trimming && (isSpace c || c == '\n') then readLongBasic true cs
    else if isLineChar c || c == '\n' then prepend (some c) (readLongBasic false cs)
    else none

def readLongLiteral : Reader (List Char)
  | [] => none
  | '\'' :: '\'' :: '\'' :: cs => some (readClosing '\'' cs)
  | '\r' :: '\n' :: cs => prepend (some '\n') (readLongLiteral cs)
  | c :: cs =>
    if isLineChar c || c == '\n' then prepend (some c) (readLongLiteral cs) else none

/-- A line end directly after the opening quotes of a long string does not count. -/
def skipFirstNewline : List Char → List Char
  | '\n' :: cs => cs
  | '\r' :: '\n' :: cs => cs
  | cs => cs

def readString : Reader (List Char)
  | '"' :: '"' :: '"' :: cs => readLongBasic false (skipFirstNewline cs)
  | '"' :: cs => readBasic cs
  | '\'' :: '\'' :: '\'' :: cs => readLongLiteral (skipFirstNewline cs)
  | '\'' :: cs => readLiteral cs
  | _ => none

/-! ## Numbers -/

/-- More digits, with single underscores between them. -/
def readMoreDigits (isDigit : Char → Bool) : List Char → List Char × List Char
  | '_' :: c :: cs =>
    if isDigit c then
      let rest := readMoreDigits isDigit cs
      (c :: rest.1, rest.2)
    else ([], '_' :: c :: cs)
  | c :: cs =>
    if isDigit c then
      let rest := readMoreDigits isDigit cs
      (c :: rest.1, rest.2)
    else ([], c :: cs)
  | [] => ([], [])

def readDigitRun (isDigit : Char → Bool) : Reader (List Char)
  | c :: cs =>
    if isDigit c then
      let rest := readMoreDigits isDigit cs
      some (c :: rest.1, rest.2)
    else none
  | [] => none

/-- A run of decimal digits without a leading zero, or one zero. -/
def readPlainDigits : Reader (List Char)
  | '0' :: cs => some (['0'], cs)
  | cs => readDigitRun Json.isDigit cs

/-- An optional sign; true is minus. -/
def readSign : List Char → Bool × List Char
  | '-' :: cs => (true, cs)
  | '+' :: cs => (false, cs)
  | cs => (false, cs)

def inBase (base : Nat) (digits : List Char) : Nat :=
  digits.foldl (fun n c => n * base + (Json.hexValue? c).getD 0) 0

def isDigitOf (base : Nat) (c : Char) : Bool :=
  match Json.hexValue? c with
  | some n => decide (n < base)
  | none => false

/-- Digits of a base other than ten, after their mark. -/
def readBased (base : Nat) (cs : List Char) : Option (Int × List Char) :=
  (readDigitRun (isDigitOf base) cs).map fun r => (Int.ofNat (inBase base r.1), r.2)

def readDecimal (cs : List Char) : Option (Int × List Char) :=
  let (negative, cs) := readSign cs
  (readPlainDigits cs).map fun r =>
    let n := Int.ofNat (inBase 10 r.1)
    (if negative then -n else n, r.2)

def readAnyInteger : List Char → Option (Int × List Char)
  | '0' :: 'x' :: cs => readBased 16 cs
  | '0' :: 'o' :: cs => readBased 8 cs
  | '0' :: 'b' :: cs => readBased 2 cs
  | cs => readDecimal cs

def readInteger (cs : List Char) : Option (Int × List Char) :=
  (readAnyInteger cs).filter fun r => Decimal.fitsInt64 r.1

def readFraction : List Char → Option (List Char × List Char)
  | '.' :: cs => readDigitRun Json.isDigit cs
  | _ => none

def readExponent : List Char → Option (Int × List Char)
  | c :: cs =>
    if c = 'e' ∨ c = 'E' then do
      let (negative, cs) := readSign cs
      let (digits, cs) ← readDigitRun Json.isDigit cs
      let n := Int.ofNat (inBase 10 digits)
      return (if negative then -n else n, cs)
    else none
  | [] => none

/-- What follows the whole part of a double: a fraction, an exponent or both. -/
def readDoubleTail (cs : List Char) : Option ((List Char × Int) × List Char) :=
  match readFraction cs with
  | some (fraction, cs) =>
    match readExponent cs with
    | some (exponent, cs) => some ((fraction, exponent), cs)
    | none => some ((fraction, 0), cs)
  | none => (readExponent cs).map fun r => (([], r.1), r.2)

/-- The magnitude of a double, or one of the words for the special values. -/
def readMagnitude : List Char → Option (Float × List Char)
  | 'i' :: 'n' :: 'f' :: cs => some (Decimal.infinity, cs)
  | 'n' :: 'a' :: 'n' :: cs => some (Decimal.notANumber, cs)
  | cs => do
    let (whole, cs) ← readPlainDigits cs
    let ((fraction, exponent), cs) ← readDoubleTail cs
    return (Decimal.nearest (inBase 10 (whole ++ fraction)) (exponent - fraction.length), cs)

def isWord : List Char → Bool
  | 'i' :: _ => true
  | 'n' :: _ => true
  | _ => false

/-- A double.  Digits must not reach plus infinity. -/
def readFloat (cs : List Char) : Option (Float × List Char) := do
  let (negative, cs) := readSign cs
  let (x, rest) ← readMagnitude cs
  if x.isInf && !negative && !isWord cs then none
  else return (if negative then -x else x, rest)

/-! ## Dates and times -/

/-- So many digits, with a value between two bounds. -/
def readField (count least greatest : Nat) (cs : List Char) : Option (Nat × List Char) :=
  let digits := cs.take count
  let n := inBase 10 digits
  if digits.length = count && digits.all Json.isDigit && least ≤ n && n ≤ greatest then
    some (n, cs.drop count)
  else none

def readMark (mark : Char) : List Char → Option (List Char)
  | c :: cs => if c = mark then some cs else none
  | [] => none

def isLeapYear (year : Nat) : Bool :=
  year % 4 == 0 && (year % 100 != 0 || year % 400 == 0)

def daysIn (year month : Nat) : Nat :=
  if month = 2 then (if isLeapYear year then 29 else 28)
  else if month = 4 || month = 6 || month = 9 || month = 11 then 30
  else 31

def readDate (cs : List Char) : Option (List Char) := do
  let (year, cs) ← readField 4 0 9999 cs
  let cs ← readMark '-' cs
  let (month, cs) ← readField 2 1 12 cs
  let cs ← readMark '-' cs
  let (_, cs) ← readField 2 1 (daysIn year month) cs
  return cs

def readTime (cs : List Char) : Option (List Char) := do
  let (_, cs) ← readField 2 0 23 cs
  let cs ← readMark ':' cs
  let (_, cs) ← readField 2 0 59 cs
  let cs ← readMark ':' cs
  let (_, cs) ← readField 2 0 60 cs
  match cs with
  | '.' :: rest =>
    if (rest.takeWhile Json.isDigit).isEmpty then return cs
    else return rest.dropWhile Json.isDigit
  | cs => return cs

def readOffset (cs : List Char) : List Char :=
  let zone (rest : List Char) : Option (List Char) := do
    let (_, rest) ← readField 2 0 23 rest
    let rest ← readMark ':' rest
    let (_, rest) ← readField 2 0 59 rest
    return rest
  match cs with
  | 'Z' :: rest => rest
  | 'z' :: rest => rest
  | '+' :: rest => (zone rest).getD cs
  | '-' :: rest => (zone rest).getD cs
  | cs => cs

def readDateTime (cs : List Char) : Option (List Char) :=
  match readDate cs with
  | some rest =>
    let timed (afterMark : List Char) : List Char :=
      match readTime afterMark with
      | some rest => readOffset rest
      | none => rest
    match rest with
    | 'T' :: afterMark => some (timed afterMark)
    | 't' :: afterMark => some (timed afterMark)
    | ' ' :: afterMark => some (timed afterMark)
    | rest => some rest
  | none => readTime cs

end Vigil.Toml
