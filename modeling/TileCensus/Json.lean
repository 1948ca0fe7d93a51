import TileCensus.Text.Digits

/-!
# JSON

Values without fractions, and how they are laid out: two blanks for each level, one item a line,
an empty container on the line it begins on. The members of an object are in the order they are
given.
-/

namespace TileCensus

/-- A JSON value. -/
inductive Json where
  | number (value : Nat)
  | text (value : String)
  | array (items : List Json)
  | object (members : List (String × Json))

namespace Json

/-- A character as it stands in a quoted text. -/
def escape (c : Char) : List Char :=
  match c with
  | '"' => ['\\', '"']
  | '\\' => ['\\', '\\']
  | '\x08' => ['\\', 'b']
  | '\x0c' => ['\\', 'f']
  | '\n' => ['\\', 'n']
  | '\r' => ['\\', 'r']
  | '\t' => ['\\', 't']
  | c =>
    if c.toNat < 0x20 then ['\\', 'u', '0', '0'] ++ Text.hexPair c.toNat else [c]

/-- A quoted text. -/
def quote (value : String) : String :=
  "\"" ++ String.ofList (value.toList.flatMap escape) ++ "\""

/-- The blanks before a line at a level. -/
def indentation (level : Nat) : String := String.ofList (List.replicate (2 * level) ' ')

/-- Items between brackets, each on a line of its own one level further in. -/
def block (opening closing : String) (level : Nat) (items : List String) : String :=
  if items.isEmpty then opening ++ closing
  else
    let lines := items.map (indentation (level + 1) ++ ·)
    opening ++ "\n" ++ String.intercalate ",\n" lines ++ "\n" ++ indentation level ++ closing

mutual

/-- The layout of a value whose first line stands at a level. -/
def layout (level : Nat) : Json → String
  | number value => toString value
  | text value => quote value
  | array items => block "[" "]" level (layoutItems (level + 1) [] items)
  | object members => block "\x7b" "\x7d" level (layoutMembers (level + 1) [] members)

/-- The layouts of items, after those already `laid` out, backwards. -/
def layoutItems (level : Nat) (laid : List String) : List Json → List String
  | [] => laid.reverse
  | item :: items => layoutItems level (layout level item :: laid) items

/-- The layouts of members, each after its key, after those already `laid` out, backwards. -/
def layoutMembers (level : Nat) (laid : List String) : List (String × Json) → List String
  | [] => laid.reverse
  | (key, value) :: members =>
    layoutMembers level ((quote key ++ ": " ++ layout level value) :: laid) members

end

end Json
end TileCensus
