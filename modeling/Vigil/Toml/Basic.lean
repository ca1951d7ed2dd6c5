import Vigil.Decimal.Integer
/-!
# TOML documents

What a document says is a table: values under keys, in their order.  What is written
is a sequence of sections with scalars in them, and stands for a table as well.  How
texts are read and written is the matter of a codec.  Of a codec it matters that it
reads what it has written as it was, and that it writes no integer beyond sixty-four
signed bits.
-/

namespace Vigil.Toml

/-- Of a date or a time only that it is one is kept.  An array of tables is an array. -/
inductive Value
  | string (s : String)
  | integer (n : Int64)
  | float (x : Float)
  | boolean (b : Bool)
  | dateTime
  | array (items : List Value)
  | table (entries : List (String × Value))

abbrev Table := List (String × Value)

inductive Scalar
  | string (s : String)
  | integer (n : Int)
  | float (x : Float)
  | boolean (b : Bool)

def Scalar.toValue : Scalar → Value
  | .string s => .string s
  | .integer n => .integer (.ofInt n)
  | .float x => .float x
  | .boolean b => .boolean b

/-- No integer beyond sixty-four signed bits, and no infinity and no NaN. -/
def Scalar.IsWritable : Scalar → Prop
  | .integer n => Decimal.fitsInt64 n = true
  | .float x => x.isFinite = true
  | .string _ | .boolean _ => True

structure Section where
  name : String
  entries : List (String × Scalar)

def isBareChar (c : Char) : Bool := c.isAlphanum || c == '-' || c == '_'

/-- A key that is written without quotes. -/
def IsBare (name : String) : Prop := name.toList ≠ [] ∧ name.toList.all isBareChar = true

instance (name : String) : Decidable (IsBare name) :=
  inferInstanceAs (Decidable (_ ∧ _))

namespace Section

def toTable (s : Section) : Table := s.entries.map fun e => (e.1, e.2.toValue)

/-- The table that a sequence of sections stands for. -/
def listToTable (sections : List Section) : Table :=
  sections.map fun s => (s.name, .table s.toTable)

/-- Keys that are written without quotes, no two the same, and scalars with a written
form. -/
structure IsWritable (s : Section) : Prop where
  name : IsBare s.name
  keys : ∀ key ∈ s.entries.map Prod.fst, IsBare key
  scalars : ∀ v ∈ s.entries.map Prod.snd, v.IsWritable
  distinct : (s.entries.map Prod.fst).Nodup

end Section

/-- A reader of documents and a writer of sections. -/
structure Codec where
  parse? : String → Option Table
  write? : List Section → Option String

/-- What a program may rely on: tables of booleans, strings, finite doubles and integers
of sixty-four signed bits are written, and read again as they were; and a section with an
integer beyond that is not written. -/
structure Codec.IsFaithful (codec : Codec) : Prop where
  parse?_write? : ∀ sections : List Section, (∀ s ∈ sections, s.IsWritable) →
    (sections.map Section.name).Nodup →
      ∃ text, codec.write? sections = some text ∧
        codec.parse? text = some (Section.listToTable sections)
  write?_eq_none : ∀ sections : List Section, ∀ s ∈ sections, ∀ n : Int,
    .integer n ∈ s.entries.map Prod.snd → Decimal.fitsInt64 n = false →
      codec.write? sections = none

end Vigil.Toml
