import Vigil.Json.Basic
/-!
# Reading JSON

The reader takes exactly one value with blanks around it.  Fields are kept in
their order, repeated names included; what a repeated name means is for the one
who asks for it.
-/

namespace Vigil.Json

def isSpace (c : Char) : Bool :=
  c == ' ' || c == '\t' || c == '\n' || c == '\r'

def skipSpace (cs : List Char) : List Char := cs.dropWhile isSpace

def isDigit (c : Char) : Bool := (Decimal.digitValue? c).isSome

def digitsValue (cs : List Char) : Nat := (Decimal.readDigits 0 cs).getD 0

def hexValue? (c : Char) : Option Nat :=
  if '0' ≤ c ∧ c ≤ '9' then some (c.toNat - 48)
  else if 'a' ≤ c ∧ c ≤ 'f' then some (c.toNat - 87)
  else if 'A' ≤ c ∧ c ≤ 'F' then some (c.toNat - 55)
  else none

def hexFour? (a b c d : Char) : Option Nat := do
  let p ← hexValue? a
  let q ← hexValue? b
  let r ← hexValue? c
  let s ← hexValue? d
  return ((p * 16 + q) * 16 + r) * 16 + s

def shortEscape? : Char → Option Char
  | '"' => some '"'
  | '\\' => some '\\'
  | '/' => some '/'
  | 'b' => some '\x08'
  | 'f' => some '\x0c'
  | 'n' => some '\n'
  | 'r' => some '\r'
  | 't' => some '\t'
  | _ => none

def isHighSurrogate (n : Nat) : Bool := 0xD800 ≤ n && n < 0xDC00

def isLowSurrogate (n : Nat) : Bool := 0xDC00 ≤ n && n < 0xE000

/-- What has been read of a string, if it is text so far, and what follows it. -/
abbrev Reading := Option (List Char) × List Char

/-- Puts a character before a string.  Without one the string is no text. -/
def prepend (c : Option Char) (r : Option Reading) : Option Reading :=
  r.map fun r => (c.bind fun c => r.1.map (c :: ·), r.2)

/-- Marks a string as no text if a high surrogate is left without its low one. -/
def settle (high : Option Nat) (r : Option Reading) : Option Reading :=
  if high.isSome then prepend none r else r

def joinSurrogates (high low : Nat) : Char :=
  Char.ofNat (0x10000 + (high - 0xD800) * 0x400 + (low - 0xDC00))

/-- The rest of a string after its opening quote, and what follows the closing
one.  A high surrogate waits for the escape of a low one to come next. -/
def readText (high : Option Nat) : List Char → Option Reading
  | [] => none
  | '"' :: cs => settle high (some (some [], cs))
  | '\\' :: 'u' :: a :: b :: c :: d :: cs =>
    match hexFour? a b c d with
    | none => none
    | some n =>
      if isHighSurrogate n then settle high (readText (some n) cs)
      else if isLowSurrogate n then
        prepend (high.map (joinSurrogates · n)) (readText none cs)
      else settle high (prepend (some (Char.ofNat n)) (readText none cs))
  | '\\' :: c :: cs =>
    match shortEscape? c with
    | none => none
    | some e => settle high (prepend (some e) (readText none cs))
  | c :: cs =>
    if c.toNat < 0x20 then none else settle high (prepend (some c) (readText none cs))

def ofText : Option (List Char) → Json
  | some cs => .string (String.ofList cs)
  | none => .illFormed

/-- The object of named values, if every name is text. -/
def ofFields (fields : List (Option (List Char) × Json)) : Json :=
  match fields.mapM fun f => f.1.map fun name => (String.ofList name, f.2) with
  | some fields => .object fields
  | none => .illFormed

/-- The digits after a point, of which there is at least one. -/
def readFraction : List Char → Option (List Char × List Char)
  | '.' :: cs =>
    let digits := cs.takeWhile isDigit
    if digits.isEmpty then none else some (digits, cs.dropWhile isDigit)
  | cs => some ([], cs)

/-- The sign of an exponent, and what follows it. -/
def readSign : List Char → Int × List Char
  | '+' :: cs => (1, cs)
  | '-' :: cs => (-1, cs)
  | cs => (1, cs)

/-- The exponent after its mark, and whether there was one. -/
def readExponent : List Char → Option (Option Int × List Char)
  | c :: cs =>
    if c = 'e' ∨ c = 'E' then
      let (sign, cs) := readSign cs
      let digits := cs.takeWhile isDigit
      if digits.isEmpty then none
      else some (some (sign * digitsValue digits), cs.dropWhile isDigit)
    else some (none, c :: cs)
  | [] => some (none, [])

/-- Whether there is a minus sign, and what follows it. -/
def readMinus : List Char → Bool × List Char
  | '-' :: cs => (true, cs)
  | cs => (false, cs)

def readNumeral (cs : List Char) : Option (Numeral × List Char) := do
  let (negative, cs) := readMinus cs
  let whole := cs.takeWhile isDigit
  if whole.isEmpty || (whole.head? == some '0' && whole.length != 1) then none
  let (fraction, cs) ← readFraction (cs.dropWhile isDigit)
  let (exponent, cs) ← readExponent cs
  return ({ negative
            digits := digitsValue (whole ++ fraction)
            exponent := exponent.getD 0 - fraction.length
            whole := fraction.isEmpty && exponent.isNone }, cs)

/-- What follows a fixed word, if the text starts with it. -/
def afterWord? (word : String) (cs : List Char) : Option (List Char) :=
  if word.toList.isPrefixOf cs then some (cs.drop word.length) else none

mutual

/-- A value after blanks.  The fuel bounds the number of nested calls. -/
def readValue (fuel : Nat) (cs : List Char) : Option (Json × List Char) :=
  match fuel with
  | 0 => none
  | fuel + 1 =>
    match skipSpace cs with
    | '"' :: cs => (readText none cs).map fun r => (ofText r.1, r.2)
    | '[' :: cs =>
      match skipSpace cs with
      | ']' :: cs => some (.array [], cs)
      | cs => (readItems fuel cs).map fun r => (.array r.1, r.2)
    | '\x7b' :: cs =>
      match skipSpace cs with
      | '\x7d' :: cs => some (.object [], cs)
      | cs => (readFields fuel cs).map fun r => (ofFields r.1, r.2)
    | 't' :: cs => (afterWord? "rue" cs).map fun r => (.boolean true, r)
    | 'f' :: cs => (afterWord? "alse" cs).map fun r => (.boolean false, r)
    | 'n' :: cs => (afterWord? "ull" cs).map fun r => (.null, r)
    | cs => (readNumeral cs).map fun r => (.number r.1, r.2)

/-- The items of an array up to its end, at least one. -/
def readItems (fuel : Nat) (cs : List Char) : Option (List Json × List Char) :=
  match fuel with
  | 0 => none
  | fuel + 1 =>
    match readValue fuel cs with
    | none => none
    | some (j, cs) =>
      match skipSpace cs with
      | ',' :: cs => (readItems fuel cs).map fun r => (j :: r.1, r.2)
      | ']' :: cs => some ([j], cs)
      | _ => none

/-- The fields of an object up to its end, at least one. -/
def readFields (fuel : Nat) (cs : List Char) :
    Option (List (Option (List Char) × Json) × List Char) :=
  match fuel with
  | 0 => none
  | fuel + 1 =>
    match skipSpace cs with
    | '"' :: cs =>
      match readText none cs with
      | none => none
      | some (name, cs) =>
        match skipSpace cs with
        | ':' :: cs =>
          match readValue fuel cs with
          | none => none
          | some (j, cs) =>
            match skipSpace cs with
            | ',' :: cs => (readFields fuel cs).map fun r => ((name, j) :: r.1, r.2)
            | '\x7d' :: cs => some ([(name, j)], cs)
            | _ => none
        | _ => none
    | _ => none

end

/-- Reads one value and nothing else.  Every second nested call consumes a
character, so twice the length of the text is fuel enough. -/
def parse? (s : String) : Option Json :=
  let cs := s.toList
  match readValue (2 * cs.length + 2) cs with
  | some (j, rest) => if (skipSpace rest).isEmpty then some j else none
  | none => none

end Vigil.Json
