import TileCensus.Text.Excerpt
import TileCensus.Toml.Double

/-!
# TOML values

Values and tables. A table remembers how it came about, because that decides who may still add to
it: an inline table is finished where it is written, a table with a header of its own is closed to
dotted keys, and a table that only dotted keys have opened never gets a header. Values, keys and
tables also remember where they are written.
-/

namespace TileCensus.Toml

open Text (Span)

/-! ## Keys -/

/-- A key without a path before it. -/
structure Key where
  name : String
  span : Span
deriving DecidableEq, Repr

/-- The names of keys. -/
def names (path : List Key) : List String := path.map (·.name)

/-- A key with the path before it. -/
structure DottedKey where
  path : List Key
  last : Key
deriving DecidableEq, Repr

/-- The parts of a key. -/
def DottedKey.parts (key : DottedKey) : List Key := key.path ++ [key.last]

/-! ## Tables -/

/-- How a table came about. -/
inductive TableKind where
  /-- By its own header, or as the document itself. -/
  | header
  /-- As a part of the path in the header of another table. -/
  | implied
  /-- By a dotted key. -/
  | dotted
  /-- By braces. -/
  | inline
deriving DecidableEq, Repr

/-- A table of values. One that a path has opened is not written at one place. -/
structure TableOf (α : Type) where
  kind : TableKind
  entries : List (Key × α)
  span : Option Span

namespace TableOf

variable {α : Type}

/-- A table without entries. -/
def empty (kind : TableKind) (span : Option Span) : TableOf α := ⟨kind, [], span⟩

/-- The entry of a key. -/
def find? (table : TableOf α) (name : String) : Option (Key × α) :=
  table.entries.find? (·.1.name = name)

/-- Adds an entry. -/
def push (table : TableOf α) (key : Key) (value : α) : TableOf α :=
  { table with entries := table.entries ++ [(key, value)] }

/-- A table without the entry of a key. -/
def erase (table : TableOf α) (name : String) : TableOf α :=
  { table with entries := table.entries.filter (·.1.name ≠ name) }

/-- Gives a key the value that `change` makes of its present one. -/
def alter {ε : Type} (table : TableOf α) (key : Key) (change : Option α → Except ε α) :
    Except ε (TableOf α) :=
  (inEntries table.entries).map fun entries => { table with entries }
where
  inEntries : List (Key × α) → Except ε (List (Key × α))
    | [] => (change none).map fun value => [(key, value)]
    | (k, v) :: rest =>
      if k.name = key.name then (change (some v)).map fun value => (k, value) :: rest
      else (inEntries rest).map fun rest => (k, v) :: rest

end TableOf

/-! ## Values -/

/-- A value. Of a moment in time only the place is kept. -/
inductive Value where
  | text (value : String) (span : Span)
  | integer (value : Int64) (span : Span)
  | float (value : Double) (span : Span)
  | boolean (value : Bool) (span : Span)
  | moment (span : Span)
  | array (items : List Value) (span : Span)
  | table (table : TableOf Value)
  /-- The tables that repeated headers in double brackets make, the last one first. -/
  | tables (backwards : List (TableOf Value))

namespace Value

/-- What kind of value it is, in words. -/
def kindName : Value → String
  | text .. => "string"
  | integer .. => "integer"
  | float .. => "float"
  | boolean .. => "boolean"
  | moment _ => "datetime"
  | array .. => "array"
  | table inner => if inner.kind = .inline then "inline table" else "table"
  | tables _ => "array of tables"

/-- Where a value is written, if that is one place. Tables in an array stretch from the first one
to the last. -/
def span? : Value → Option Span
  | text _ span | integer _ span | float _ span | boolean _ span | moment span | array _ span =>
    some span
  | table inner => inner.span
  | tables backwards => do
    let first ← (← backwards.getLast?).span
    let last ← (← backwards.head?).span
    return ⟨first.start, last.stop⟩

end Value
end TileCensus.Toml
