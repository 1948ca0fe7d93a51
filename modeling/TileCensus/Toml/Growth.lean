import TileCensus.Toml.Fault
import TileCensus.Toml.Value
import TileCensus.Toml.WrittenKey

/-!
# The growth of tables

What assignments and headers do to tables, and why they may be refused: a key has one value, a
table has one header, and a path leads through tables only.
-/

namespace TileCensus.Toml

open Text (Span)

/-! ## Paths -/

/-- A table that assignments are written into. -/
inductive Owner where
  /-- A table with a header; the document has the path of no keys. -/
  | header (path : List String)
  /-- A table between braces. -/
  | braces
deriving DecidableEq, Repr

/-- What there is to say of a key that has a value already. -/
def Owner.duplicate (owner : Owner) (key : Key) : Cause :=
  match owner with
  | header path => .duplicateKeyIn path key.name
  | braces => .duplicateKey key.name

/-- What a path is written for. -/
inductive Route where
  | header
  | assignment (owner : Owner)
deriving DecidableEq, Repr

namespace Route

/-- How tables come about that are not there yet. -/
def opens : Route → TableKind
  | header => .implied
  | assignment _ => .dotted

/-- Why a path may not go on in the table that its last key has led to. -/
def refusal? (route : Route) (walked : List Key) (key : Key) (kind : TableKind) : Option Cause :=
  match route, kind with
  | assignment .braces, .inline => some (.duplicateKey key.name)
  | _, .inline => some (.extendsValue (names walked) "inline table")
  | assignment _, .header => some (.duplicateKey key.name)
  | _, _ => none

end Route

/-! ## Growth -/

namespace TableOf

/-- Changes the table that a path leads to, where the keys `walked` have led so far. Tables on the
way that are not there are opened, and an array of tables is entered at its last one. -/
def alterAt (route : Route) (change : TableOf Value → Except Cause (TableOf Value))
    (walked path : List Key) (table : TableOf Value) : Except Cause (TableOf Value) :=
  match path with
  | [] => change table
  | key :: path =>
    let walked := walked ++ [key]
    table.alter key fun
      | none => .table <$> alterAt route change walked path (.empty route.opens none)
      | some (.table inner) =>
        match route.refusal? walked key inner.kind with
        | some cause => .error cause
        | none => .table <$> alterAt route change walked path inner
      | some (.tables (last :: earlier)) =>
        (fun last => .tables (last :: earlier)) <$> alterAt route change walked path last
      | some value => .error (.extendsValue (names walked) value.kindName)

/-- Gives a new key a value. A dotted key ends in a table that dotted keys have opened, and no
other key does. -/
def assign (owner : Owner) (key : DottedKey) (value : Value) (table : TableOf Value) :
    Except Cause (TableOf Value) :=
  table.alterAt (.assignment owner) change [] key.path
where
  change (inner : TableOf Value) : Except Cause (TableOf Value) :=
    if inner.kind = .dotted ↔ key.path = [] then .error (.duplicateKey key.last.name)
    else inner.alter key.last fun
      | none => .ok value
      | some _ => .error (owner.duplicate key.last)

/-- What there is to say of a header whose table is there already. -/
def secondHeader (key : DottedKey) : Cause :=
  .duplicateKeyIn (names key.path) (writtenKey key.last.name)

/-- Opens the table of a header. One that other headers have opened before moves to the end. -/
def openTable (key : DottedKey) (span : Span) (table : TableOf Value) :
    Except Cause (TableOf Value) :=
  table.alterAt .header change [] key.path
where
  change (inner : TableOf Value) : Except Cause (TableOf Value) :=
    match inner.find? key.last.name with
    | none => .ok (inner.push key.last (.table (.empty .header (some span))))
    | some (_, .table started) =>
      if started.kind = .implied then
        let opened := { started with kind := .header, span := some span }
        .ok ((inner.erase key.last.name).push key.last (.table opened))
      else .error (secondHeader key)
    | some _ => .error (secondHeader key)

/-- Opens the next table of a header in double brackets. -/
def openNext (key : DottedKey) (span : Span) (table : TableOf Value) :
    Except Cause (TableOf Value) :=
  table.alterAt .header change [] key.path
where
  change (inner : TableOf Value) : Except Cause (TableOf Value) :=
    inner.alter key.last fun
      | none => .ok (.tables [.empty .header (some span)])
      | some (.tables backwards) => .ok (.tables (.empty .header (some span) :: backwards))
      | some _ => .error (secondHeader key)

/-- A table that is written up to the end of a value, where its header has a place. -/
def extendTo (value : Value) (table : TableOf Value) : TableOf Value :=
  match table.span, value.span? with
  | some own, some last => { table with span := some ⟨own.start, last.stop⟩ }
  | _, _ => table

end TableOf
end TileCensus.Toml
