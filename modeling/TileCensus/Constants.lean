import TileCensus.Diagnostic
import TileCensus.Name
import TileCensus.Text.Digits
import TileCensus.Text.Line
import TileCensus.Tile.Number

/-!
# Literals, constants and variables

A literal is a hexadecimal number (`0x1F`) or a decimal number with an optional sign (`-12`,
`+3`) that fits a tile number. Anything else, a number that is too large included, is a name.

The two lists of names a run is given. A constant record is `<ignored> NAME VALUE` on a line of
its own, where the value is `YES`, `NO` or a literal; a variable record is `<ignored> NAME`. What
follows on the line is ignored. A record that cannot be read is reported and changes nothing, and
a repeated constant keeps its last value.
-/

namespace TileCensus

open Text

/-! ## Literals -/

namespace Literal

/-- The integer a word is written for, before its size is looked at. -/
def integer? (word : List Char) : Option Int :=
  match word with
  | '0' :: 'x' :: digits | '0' :: 'X' :: digits => (hexadecimal? digits).map Int.ofNat
  | '-' :: digits => (decimal? digits).map fun n => -Int.ofNat n
  | '+' :: digits => (decimal? digits).map Int.ofNat
  | digits => (decimal? digits).map Int.ofNat

/-- The value of a literal. -/
def value? (word : String) : Option Int64 := (integer? word.toList).bind Tile.fit?

/-- Whether a word is a literal. -/
def isLiteral (word : String) : Bool := (value? word).isSome

end Literal

/-! ## Lists of records -/

/-- What a line of a list of records holds. -/
inductive RecordLine (α : Type) where
  | blank
  | entry (value : α)
  | malformed (message : String)
deriving DecidableEq, Repr

namespace RecordLine

/-- The entries of numbered lines, in order. -/
def entries {α : Type} (read : List Char → RecordLine α) (text : String) : List α :=
  (lines text).filterMap fun line =>
    match read line with
    | entry value => some value
    | _ => none

/-- One diagnostic for each malformed line, at that line. -/
def diagnostics {α : Type} (read : List Char → RecordLine α) (file text : String) :
    List Diagnostic :=
  (numbered (lines text)).filterMap fun (line, number) =>
    match read line with
    | malformed message => some ⟨.malformedRecord, some ⟨file, number⟩, message⟩
    | _ => none

end RecordLine

/-! ## Constants -/

/-- Names with the values they stand for. -/
abbrev Constants := Table String Int64

namespace Constants

/-- The value of the third field of a constant record. -/
def recordValue? (field : String) : Option Int64 :=
  match field with
  | "YES" => some 1
  | "NO" => some 0
  | _ => Literal.value? field

/-- The constant a line declares. -/
def readLine (line : List Char) : RecordLine (String × Int64) :=
  match fields line with
  | [] => .blank
  | _ :: name :: field :: _ =>
    match recordValue? (String.ofList field) with
    | some value => .entry (String.ofList name, value)
    | none => .malformed ("non integer define: " ++ String.ofList (trim line))
  | _ => .malformed ("incomplete define: " ++ String.ofList (trim line))

/-- The constants a text declares. -/
def ofText (text : String) : Constants := .ofList (RecordLine.entries readLine text)

/-- The malformed records of a text. -/
def problems (file text : String) : List Diagnostic := RecordLine.diagnostics readLine file text

/-- The value of a word: that of a literal, else the constant's. -/
def resolve? (constants : Constants) (word : String) : Option Int64 :=
  (Literal.value? word).or (constants[word]?)

end Constants

/-! ## Variables -/

namespace Variables

/-- The variable a line declares. -/
def readLine (line : List Char) : RecordLine String :=
  match fields line with
  | [] => .blank
  | _ :: name :: _ => .entry (String.ofList name)
  | _ => .malformed ("incomplete variable record: " ++ String.ofList (trim line))

/-- The variable names a text declares. -/
def ofText (text : String) : NameSet := .ofList (RecordLine.entries readLine text)

/-- The malformed records of a text. -/
def problems (file text : String) : List Diagnostic := RecordLine.diagnostics readLine file text

end Variables
end TileCensus
