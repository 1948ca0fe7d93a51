import TileCensus.Text.Digits

/-!
# Written keys

A key as a document would have it: without quotes where that is possible, else in double quotes,
except where these would need escapes and single quotes would not. A tab may stand for itself, and
asks for no escape, but is written as one in double quotes.
-/

namespace TileCensus.Toml

/-- Characters of keys without quotes. -/
def isBareKeyChar (c : Char) : Bool := c.isAlphanum || c = '-' || c = '_'

/-- Characters that only an escape can stand for. -/
def needsEscape (c : Char) : Bool := (c.toNat < 0x20 && c ≠ '\t') || c.toNat = 0x7F

/-- A character between double quotes. -/
def escapedChar (c : Char) : List Char :=
  match c with
  | '\x08' => ['\\', 'b']
  | '\t' => ['\\', 't']
  | '\n' => ['\\', 'n']
  | '\x0c' => ['\\', 'f']
  | '\r' => ['\\', 'r']
  | '"' => ['\\', '"']
  | '\\' => ['\\', '\\']
  | c =>
    if needsEscape c then ['\\', 'u', '0', '0'] ++ (Text.hexPair c.toNat).map Char.toUpper else [c]

/-- A key as it is written. -/
def writtenKey (name : String) : String :=
  let chars := name.toList
  let isPlain := fun (others : List Char) =>
    chars.all fun c => !needsEscape c && !others.contains c
  if chars ≠ [] ∧ chars.all isBareKeyChar then name
  else if isPlain ['\''] && !isPlain ['"', '\\'] then "'" ++ name ++ "'"
  else "\"" ++ String.ofList (chars.flatMap escapedChar) ++ "\""

end TileCensus.Toml
