import Vigil.Toml.Lexis
import Vigil.Toml.Node
/-!
# Reading a TOML document

A document is a sequence of lines: blank ones, headers, and assignments.  Values
nest to a fixed depth, which also bounds the recursion; keys have as many parts
at most.
-/

namespace Vigil.Toml

/-- How deep values may nest. -/
def maxDepth : Nat := 79

def readKeyPart : Reader String
  | '"' :: cs => (readBasic cs).map fun r => (String.ofList r.1, r.2)
  | '\'' :: cs => (readLiteral cs).map fun r => (String.ofList r.1, r.2)
  | cs =>
    let part := cs.takeWhile isBareChar
    if part.isEmpty then none else some (String.ofList part, cs.dropWhile isBareChar)

/-- The parts of a key between points, so many at most, with blanks around each.
The last part stands apart. -/
def readKey (count : Nat) (cs : List Char) : Option ((List String × String) × List Char) :=
  match count with
  | 0 => none
  | count + 1 => do
    let (part, cs) ← readKeyPart (skipSpace cs)
    match skipSpace cs with
    | '.' :: cs =>
      let ((path, last), cs) ← readKey count cs
      return ((part :: path, last), cs)
    | cs => return (([], part), cs)

/-- The items of an array up to its end. -/
def readItems (item : Reader Node) (fuel : Nat) (cs : List Char) :
    Option (List Node × List Char) :=
  match fuel with
  | 0 => none
  | fuel + 1 =>
    match skipLines false cs with
    | ']' :: cs => some ([], cs)
    | cs => do
      let (v, cs) ← item cs
      match skipLines false cs with
      | ',' :: cs =>
        let (vs, cs) ← readItems item fuel cs
        return (v :: vs, cs)
      | ']' :: cs => return ([v], cs)
      | _ => none

/-- A key, the sign of equality, and a value after blanks. -/
def readAssignment (value : Reader Node) (cs : List Char) :
    Option ((List String × String × Node) × List Char) := do
  let ((path, key), cs) ← readKey maxDepth cs
  let cs ← readMark '=' cs
  let (v, cs) ← value (skipSpace cs)
  return ((path, key, v), cs)

/-- The assignments between braces up to the closing one, at least one. -/
def readInline (value : Reader Node) (fuel : Nat) (t : Tree) (cs : List Char) :
    Option (Tree × List Char) :=
  match fuel with
  | 0 => none
  | fuel + 1 => do
    let ((path, key, v), cs) ← readAssignment value cs
    let t ← t.assign path key v
    match skipSpace cs with
    | ',' :: cs => readInline value fuel t cs
    | '\x7d' :: cs => return (t, cs)
    | _ => none

/-- A number, a date or a time. -/
def readNumber (cs : List Char) : Option (Node × List Char) :=
  match readDateTime cs with
  | some rest => some (.dateTime, rest)
  | none =>
    match readFloat cs with
    | some (x, rest) => some (.float x, rest)
    | none => (readInteger cs).map fun r => (.integer r.1, r.2)

/-- A value that does not nest. -/
def readScalar (cs : List Char) : Option (Node × List Char) :=
  match cs with
  | '"' :: _ => (readString cs).map fun r => (.string (String.ofList r.1), r.2)
  | '\'' :: _ => (readString cs).map fun r => (.string (String.ofList r.1), r.2)
  | 't' :: 'r' :: 'u' :: 'e' :: cs => some (.boolean true, cs)
  | 'f' :: 'a' :: 'l' :: 's' :: 'e' :: cs => some (.boolean false, cs)
  | cs => readNumber cs

/-- A value that nests at most so deep. -/
def readValue (depth : Nat) (cs : List Char) : Option (Node × List Char) :=
  match depth, cs with
  | depth + 1, '[' :: cs =>
    (readItems (readValue depth) (cs.length + 1) cs).map fun r => (.array r.1, r.2)
  | depth + 1, '\x7b' :: cs =>
    match skipSpace cs with
    | '\x7d' :: cs => some (.table .inline [], cs)
    | cs =>
      (readInline (readValue depth) (cs.length + 1) [] cs).map fun r => (.table .inline r.1, r.2)
  | _, cs => readScalar cs

/-- A document that is being read: what it assigns so far, and the path of the
last header. -/
structure Draft where
  tree : Tree := []
  header : List String := []

/-- The rest of a header after its opening brackets. -/
def readHeader (closing : List Char) (cs : List Char) :
    Option ((List String × String) × List Char) := do
  let (key, cs) ← readKey maxDepth cs
  if closing.isPrefixOf cs then
    let cs ← endLine? (cs.drop closing.length)
    return (key, cs)
  else none

def readLine (d : Draft) (cs : List Char) : Option (Draft × List Char) :=
  match cs with
  | '[' :: '[' :: cs => do
    let ((path, key), cs) ← readHeader [']', ']'] cs
    let tree ← d.tree.openElement path key
    return (⟨tree, path ++ [key]⟩, cs)
  | '[' :: cs => do
    let ((path, key), cs) ← readHeader [']'] cs
    let tree ← d.tree.openTable path key
    return (⟨tree, path ++ [key]⟩, cs)
  | cs => do
    let ((path, key, v), cs) ← readAssignment (readValue maxDepth) cs
    let cs ← endLine? cs
    let tree ← d.tree.assignBelow d.header path key v
    return (⟨tree, d.header⟩, cs)

/-- Reads lines up to the end of the text; every line takes a character. -/
def readLines (fuel : Nat) (d : Draft) (cs : List Char) : Option Tree :=
  match fuel with
  | 0 => none
  | fuel + 1 =>
    match skipSpace cs with
    | [] => some d.tree
    | '\n' :: cs => readLines fuel d cs
    | '\r' :: '\n' :: cs => readLines fuel d cs
    | '#' :: cs => do
      let cs ← endLine? ('#' :: cs)
      readLines fuel d cs
    | cs => do
      let (d, cs) ← readLine d cs
      readLines fuel d cs

/-- Reads a document, with or without a byte order mark. -/
def readDocument (s : String) : Option Tree :=
  let cs := match s.toList with
    | '\uFEFF' :: cs => cs
    | cs => cs
  readLines (cs.length + 1) {} cs

def parse? (s : String) : Option Table := (readDocument s).map Tree.toTable

end Vigil.Toml
