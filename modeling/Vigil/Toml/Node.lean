import Vigil.Toml.Basic
/-!
# Documents while they are read

While a document is read, each table remembers how it came to be, because that
decides whether it may still be extended: a header opens a table once, the parents
it names stay open for a header of their own, a dotted key extends only tables that
dotted keys have made, and a table between braces is closed.  What has been read is
a tree of such tables, and a tree that is complete stands for a plain table.
-/

namespace Vigil.Toml

inductive Origin
  | header
  | parent
  | dotted
  | inline
deriving DecidableEq, Repr

/-- The elements of an array of tables stand newest first. -/
inductive Node
  | string (s : String)
  | integer (n : Int)
  | float (x : Float)
  | boolean (b : Bool)
  | dateTime
  | array (items : List Node)
  | table (origin : Origin) (entries : List (String × Node))
  | tables (elements : List (List (String × Node)))

/-- A table that is being read. -/
abbrev Tree := List (String × Node)

namespace Tree

def find? (t : Tree) (key : String) : Option Node :=
  match t with
  | [] => none
  | e :: es => if e.1 = key then some e.2 else find? es key

/-- Assigns a value to a key, at the end if the key is new. -/
def put (t : Tree) (key : String) (v : Node) : Tree :=
  match t with
  | [] => [(key, v)]
  | e :: es => if e.1 = key then (key, v) :: es else e :: put es key v

/-- Changes the table that a path leads to, making tables on the way.  The
change is told whether the table was made by dotted keys. -/
def change (dotted : Bool) (edit : Bool → Tree → Option Tree) :
    (path : List String) → (byDots : Bool) → Tree → Option Tree
  | [], byDots, t => edit byDots t
  | key :: path, _, t =>
    match t.find? key with
    | none =>
      (change dotted edit path dotted []).map fun inner =>
        t.put key (.table (if dotted then .dotted else .parent) inner)
    | some (.table origin inner) =>
      if origin = .inline || (dotted && origin == .header) then none
      else (change dotted edit path (origin == .dotted) inner).map fun inner =>
        t.put key (.table origin inner)
    | some (.tables (newest :: older)) =>
      (change dotted edit path false newest).map fun newest =>
        t.put key (.tables (newest :: older))
    | some _ => none

/-- Assigns a value to a new key below a dotted path. -/
def assign (t : Tree) (path : List String) (key : String) (v : Node) : Option Tree :=
  change true (fun byDots inner =>
    if byDots == path.isEmpty || (inner.find? key).isSome then none
    else some (inner.put key v)) path false t

def openTable (t : Tree) (path : List String) (key : String) : Option Tree :=
  change false (fun _ inner =>
    match inner.find? key with
    | none => some (inner.put key (.table .header []))
    | some (.table .parent entries) => some (inner.put key (.table .header entries))
    | some _ => none) path false t

/-- Opens a new element of the array of tables of a double header. -/
def openElement (t : Tree) (path : List String) (key : String) : Option Tree :=
  change false (fun _ inner =>
    match inner.find? key with
    | none => some (inner.put key (.tables [[]]))
    | some (.tables elements) => some (inner.put key (.tables ([] :: elements)))
    | some _ => none) path false t

/-- Assigns a value in the table that the last header has opened. -/
def assignBelow (t : Tree) (header path : List String) (key : String) (v : Node) :
    Option Tree :=
  change false (fun _ inner => inner.assign path key v) header false t

@[simp] theorem find?_nil (key : String) : find? [] key = none := rfl

end Tree

/-! ## What a document says -/

mutual

def Node.toValue : Node → Value
  | .string s => .string s
  | .integer n => .integer (.ofInt n)
  | .float x => .float x
  | .boolean b => .boolean b
  | .dateTime => .dateTime
  | .array items => .array (toValues items)
  | .table _ entries => .table (Tree.toTable entries)
  | .tables elements => .array (toTables elements).reverse

def toValues : List Node → List Value
  | [] => []
  | v :: vs => v.toValue :: toValues vs

def Tree.toTable : Tree → Table
  | [] => []
  | (key, v) :: rest => (key, v.toValue) :: Tree.toTable rest

def toTables : List Tree → List Value
  | [] => []
  | t :: ts => .table (Tree.toTable t) :: toTables ts

end

theorem Tree.toTable_eq_map (t : Tree) : t.toTable = t.map fun e => (e.1, e.2.toValue) := by
  induction t with
  | nil => rfl
  | cons e t ih =>
      change (e.1, e.2.toValue) :: Tree.toTable t = _
      rw [ih]
      rfl

end Vigil.Toml
