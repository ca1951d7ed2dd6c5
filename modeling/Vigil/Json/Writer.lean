import Vigil.Json.Codec
import Vigil.Json.Reader
/-!
# Writing JSON

Fields are written in the order of their names.  There are two forms, one
without any blanks and one with a line for every item and field.  Together with
the reader the latter makes a codec.
-/

namespace Vigil.Json

def hexDigit (n : Nat) : Char := Nat.digitChar n

def escapeChar (c : Char) : List Char :=
  if c = '"' then ['\\', '"']
  else if c = '\\' then ['\\', '\\']
  else if c = '\x08' then ['\\', 'b']
  else if c = '\x0c' then ['\\', 'f']
  else if c = '\n' then ['\\', 'n']
  else if c = '\r' then ['\\', 'r']
  else if c = '\t' then ['\\', 't']
  else if c.toNat < 0x20 then
    ['\\', 'u', '0', '0', hexDigit (c.toNat / 16), hexDigit (c.toNat % 16)]
  else [c]

def writeText (s : String) : String :=
  String.ofList ('"' :: s.toList.flatMap escapeChar ++ ['"'])

/-- A whole numeral by its digits, any other one in the compact layout. -/
def writeNumeral (n : Numeral) : String :=
  let body := if n.whole then Decimal.figures n.digits
    else Decimal.compact.set ⟨n.digits, n.exponent⟩
  String.ofList (if n.negative then '-' :: body else body)

/-- Lays out the parts of an array or an object between two brackets. -/
abbrev Arrangement := (depth : Nat) → (opening closing : String) → List String → String

/-- Everything on one line, without blanks. -/
def joined : Arrangement := fun _ opening closing parts =>
  opening ++ ",".intercalate parts ++ closing

def indentation (depth : Nat) : String := String.ofList (List.replicate (2 * depth) ' ')

/-- A line for every part, indented by two blanks for each level. -/
def indented : Arrangement := fun depth opening closing parts =>
  if parts.isEmpty then opening ++ closing
  else
    let lines := parts.map fun part => indentation (depth + 1) ++ part
    opening ++ "\n" ++ ",\n".intercalate lines ++ "\n" ++ indentation depth ++ closing

/-- Puts named parts into the order of their names. -/
def byName (fields : List (String × String)) : List (String × String) :=
  fields.mergeSort fun f g => decide (f.1 ≤ g.1)

mutual

def writeValue (arrange : Arrangement) (colon : String) (depth : Nat) : Json → String
  | .illFormed | .null => "null"
  | .boolean b => if b then "true" else "false"
  | .number n => writeNumeral n
  | .string s => writeText s
  | .array items => arrange depth "[" "]" (writeItems arrange colon (depth + 1) items)
  | .object fields =>
    arrange depth "\x7b" "\x7d" <|
      (byName (writeFields arrange colon (depth + 1) fields)).map fun f =>
        writeText f.1 ++ colon ++ f.2

def writeItems (arrange : Arrangement) (colon : String) (depth : Nat) : List Json → List String
  | [] => []
  | j :: js => writeValue arrange colon depth j :: writeItems arrange colon depth js

def writeFields (arrange : Arrangement) (colon : String) (depth : Nat) :
    List (String × Json) → List (String × String)
  | [] => []
  | (name, j) :: fs =>
    (name, writeValue arrange colon depth j) :: writeFields arrange colon depth fs

end

def compress (j : Json) : String := writeValue joined ":" 0 j

def pretty (j : Json) : String := writeValue indented ": " 0 j

/-- The reader and the writer of this library.  A number is read as the nearest double. -/
def Codec.standard : Codec where
  parse? := Json.parse?
  float? := Numeral.toFloat?
  pretty := Json.pretty

end Vigil.Json
