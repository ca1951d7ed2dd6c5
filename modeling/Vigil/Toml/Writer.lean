import Vigil.Decimal.Layout
import Vigil.Toml.Document
/-!
# Writing TOML

What is written is a sequence of sections with scalars in them.  A string takes
the plainest of the four quotings in which it stands as it is: one quote before
three, and double quotes before single ones.  Only where none of them will do,
characters are escaped between double quotes.  A string with a line end takes
three quotes and begins on a line of its own.  Together with the reader this makes
a codec.
-/

namespace Vigil.Toml

/-- The four ways to set a string between quotes.  Both long ones may hold line
ends, and both literal ones know no escapes. -/
inductive Quoting
  | basic
  | literal
  | longBasic
  | longLiteral
deriving DecidableEq, Repr

def Quoting.delimiter : Quoting → String
  | .basic => "\""
  | .literal => "'"
  | .longBasic => "\"\"\""
  | .longLiteral => "'''"

/-- A control character that stands in no string as it is. -/
def needsEscape (c : Char) : Bool :=
  (c.toNat < 0x20 && c != '\t' && c != '\n') || c.toNat == 0x7F

/-- Whether a character stands three times in a row. -/
def hasThree (c : Char) : List Char → Bool
  | x :: y :: z :: cs => (x == c && y == c && z == c) || hasThree c (y :: z :: cs)
  | _ => false

/-- The first quoting that needs no escapes but for tabs, else one that has them. -/
def quotingOf (cs : List Char) : Quoting :=
  let shown := !cs.any needsEscape
  let verbatim := shown && !cs.contains '\\'
  let oneLine := !cs.contains '\n'
  if verbatim && !cs.contains '"' && oneLine then .basic
  else if shown && !cs.contains '\'' && oneLine then .literal
  else if verbatim && !hasThree '"' cs then .longBasic
  else if shown && !hasThree '\'' cs then .longLiteral
  else if oneLine then .basic
  else .longBasic

def hexFour (n : Nat) : List Char :=
  [n / 4096, n / 256 % 16, n / 16 % 16, n % 16].map fun d => (Nat.digitChar d).toUpper

/-- The written form of a character other than a quote between double quotes. -/
def escapeChar (longForm : Bool) (c : Char) : List Char :=
  if c = '\x08' then ['\\', 'b']
  else if c = '\t' then ['\\', 't']
  else if c = '\n' then (if longForm then ['\n'] else ['\\', 'n'])
  else if c = '\x0c' then ['\\', 'f']
  else if c = '\r' then ['\\', 'r']
  else if c = '\\' then ['\\', '\\']
  else if needsEscape c then ['\\', 'u'] ++ hexFour c.toNat
  else [c]

/-- How many quotes may follow one another between double quotes. -/
def spareQuotes (longForm : Bool) : Nat := if longForm then 2 else 0

/-- The written form of a text between double quotes, where `room` more quotes
may stand as they are.  The next one is escaped, and ends the row. -/
def escapeText (longForm : Bool) (room : Nat) : List Char → List Char
  | [] => []
  | c :: cs =>
    if c = '"' then
      match room with
      | 0 => '\\' :: '"' :: escapeText longForm (spareQuotes longForm) cs
      | room + 1 => '"' :: escapeText longForm room cs
    else escapeChar longForm c ++ escapeText longForm (spareQuotes longForm) cs

/-- A text as it stands between the delimiters of a quoting. -/
def Quoting.body (cs : List Char) : Quoting → List Char
  | .basic => escapeText false (spareQuotes false) cs
  | .longBasic => escapeText true (spareQuotes true) cs
  | .literal | .longLiteral => cs

def writeString (s : String) : String :=
  let cs := s.toList
  let quoting := quotingOf cs
  let lineEnd := if cs.contains '\n' then "\n" else ""
  quoting.delimiter ++ lineEnd ++ String.ofList (quoting.body cs) ++ quoting.delimiter

def Scalar.write : Scalar → String
  | .string s => writeString s
  | .integer n => toString n
  | .float x => Decimal.fractional.write x
  | .boolean b => if b then "true" else "false"

def Section.write (s : Section) : String :=
  let lines := s.entries.map fun e => e.1 ++ " = " ++ e.2.write ++ "\n"
  "[" ++ s.name ++ "]\n" ++ String.join lines

/-- Sections with a blank line between them. -/
def write (sections : List Section) : String :=
  "\n".intercalate (sections.map Section.write)

/-- Whether an integer has sixty-four signed bits. -/
def Scalar.fits : Scalar → Bool
  | .integer n => Decimal.fitsInt64 n
  | _ => true

def write? (sections : List Section) : Option String :=
  if sections.all fun s => s.entries.all fun e => e.2.fits then some (write sections) else none

/-- The reader and the writer of this library. -/
def Codec.standard : Codec where
  parse? := Toml.parse?
  write? := Toml.write?

end Vigil.Toml
