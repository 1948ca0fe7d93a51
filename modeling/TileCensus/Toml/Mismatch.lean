import TileCensus.Text.Quoted
import TileCensus.Toml.Value

/-!
# Mismatches

What is wrong with a value that is not what it should be, and the readings of values that find it.
A mismatch remembers where the value is written, unless that is not one place; then what is around
the value adds its own place (`Fitting.within`).
-/

namespace TileCensus.Toml

open Text (Span)

/-! ## What is there -/

/-- What a value is, in words. -/
def Value.description : Value → String
  | text value _ => "string " ++ Text.quoted value
  | integer value _ => s!"integer `{value.toInt}`"
  | float value _ => s!"floating point `{value.text}`"
  | boolean value _ => s!"boolean `{value}`"
  | array .. | tables _ => "sequence"
  | moment _ | table _ => "map"

/-! ## Mismatches -/

/-- What is wrong with a value. -/
inductive MismatchKind where
  /-- It is of another kind. -/
  | wrongKind (found wanted : String)
  /-- It is out of range. -/
  | wrongValue (found wanted : String)
  | wrongLength (length : Nat) (wanted : String)
  | missingField (name : String)
  /-- It is none of the names that it may be. -/
  | unknownName (name : String) (known : List String)
  /-- It is no name, and nothing that has one. -/
  | noName
  /-- It is a table that should name one thing. -/
  | noEntry
  | manyEntries
  /-- Something is under a name that has nothing under it. -/
  | fullTable
  | fullTables
  | notATable (kind : String)
deriving DecidableEq, Repr

/-- The mismatch in words. -/
def MismatchKind.message : MismatchKind → String
  | wrongKind found wanted => s!"invalid type: {found}, expected {wanted}"
  | wrongValue found wanted => s!"invalid value: {found}, expected {wanted}"
  | wrongLength length wanted => s!"invalid length {length}, expected {wanted}"
  | missingField name => s!"missing field `{name}`"
  | unknownName name known =>
    s!"unknown variant `{name}`, expected one of " ++
      ", ".intercalate (known.map fun other => s!"`{other}`")
  | noName => "wanted string or table"
  | noEntry => "wanted exactly 1 element, found 0 elements"
  | manyEntries => "wanted exactly 1 element, more than 1 element"
  | fullTable => "expected empty table"
  | fullTables => "expected empty array"
  | notATable kind => "expected table, found " ++ kind

/-- What is wrong, and where. -/
structure Mismatch where
  kind : MismatchKind
  span : Option Span
deriving DecidableEq, Repr

/-- What is made of a value, or why nothing is. -/
abbrev Fitting (α : Type) := Except Mismatch α

namespace Fitting

variable {α : Type}

/-- Says where a mismatch is that has no place of its own. -/
def within (span : Option Span) (fitting : Fitting α) : Fitting α :=
  fitting.mapError fun mismatch => { mismatch with span := mismatch.span.or span }

end Fitting

/-! ## Readings -/

namespace Value

/-- A value that is not of the kind that is wanted. -/
def misfit {α : Type} (value : Value) (wanted : String) : Fitting α :=
  .error ⟨.wrongKind value.description wanted, value.span?⟩

/-- The text that a value is. -/
def asText (wanted : String) : Value → Fitting String
  | text value _ => .ok value
  | value => value.misfit wanted

/-- The items that a value has. -/
def asItems : Value → Fitting (List Value)
  | array items _ => .ok items
  | tables backwards => .ok (backwards.reverse.map .table)
  | value => value.misfit "a sequence"

/-- The natural number that a value is. -/
def asNat (wanted : String) (value : Value) : Fitting Nat :=
  match value with
  | integer n _ =>
    if 0 ≤ n.toInt then .ok n.toInt.toNat
    else .error ⟨.wrongValue value.description wanted, value.span?⟩
  | _ => value.misfit wanted

/-- Nothing, which is all that may be under a name. -/
def asNothing (value : Value) : Fitting Unit :=
  let refused := fun (kind : MismatchKind) => .error ⟨kind, value.span?⟩
  match value with
  | array items _ => if items.isEmpty then .ok () else refused .fullTable
  | table inner => if inner.entries.isEmpty then .ok () else refused .fullTable
  | tables backwards => if backwards.isEmpty then .ok () else refused .fullTables
  | other => refused (.notATable other.kindName)

/-- The thing that a value names, as a text or as the only key of a table with nothing under it. -/
def asNamed {α : Type} (named? : String → Option α) (known : List String) (value : Value) :
    Fitting α :=
  let ofName := fun (name : String) (span : Option Span) =>
    match named? name with
    | some named => .ok named
    | none => .error ⟨.unknownName name known, span⟩
  Fitting.within value.span? <|
    match value with
    | text name _ => ofName name none
    | table inner =>
      match inner.entries with
      | [] => .error ⟨.noEntry, none⟩
      | [(key, content)] => do
        let named ← ofName key.name (some key.span)
        content.asNothing
        return named
      | _ => .error ⟨.manyEntries, none⟩
    | _ => .error ⟨.noName, none⟩

end Value
end TileCensus.Toml
