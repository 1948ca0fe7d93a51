import TileCensus.Toml.Growth
import TileCensus.Toml.Moment
import TileCensus.Toml.Number
import TileCensus.Toml.Text

/-!
# TOML documents

A document is read statement by statement: a header opens a table, an assignment gives a key of the
open table a value. Keys may be dotted, and arrays and inline tables may be nested; both only so
deep. Once a statement has begun nothing else can stand in its place, so its failures are final.
-/

namespace TileCensus.Toml

open Reader
open Text (Span)

/-! ## Keys -/

/-- How deep values are nested at most, and how many parts a key has at most. -/
def depthLimit : Nat := 79

/-- Takes a part of a key with the spaces around it. -/
def keyPart : Reader Key := do
  spaces
  let key ← spanned do
    let name ← match ← look anyChar with
      | '"' => basic
      | '\'' => literal
      | _ => someRun isBareKeyChar
    return Key.mk (String.ofList name)
  spaces
  return key

/-- A key of as many parts as there may be. -/
def keyOfParts (parts : List Key) : Except Fault DottedKey :=
  match parts.getLast? with
  | none => .error {}
  | some last =>
    if parts.length ≤ depthLimit then .ok ⟨parts.dropLast, last⟩ else .error (.because .tooDeep)

/-- Takes a key. -/
def key : Reader DottedKey :=
  ((someSeparated (char '.') keyPart).named "key").checked keyOfParts

/-! ## Values -/

/-- Takes the sign between a key and its value, with the spaces after it. -/
def equals : Reader Unit := do
  ((char '=').expecting (.mark ".")).expecting (.mark "=")
  spaces

/-- Takes an array whose items `item` takes. -/
def array (item : Reader Value) : Reader (Span → Value) := do
  char '['
  let items ← commit do
    if (← peek) = some ']' then return []
    let items ← separated (char ',') do
      gap
      let value ← item
      gap
      return value
    if !items.isEmpty then
      let _ ← opt (char ',')
    gap
    return items
  ((char ']').commit.named "array").expecting (.mark "]")
  return .array items

/-- The inline table that assignments make. -/
def tableOfAssignments (assignments : List (DottedKey × Value)) :
    Except Fault (TableOf Value) :=
  let table : Except Cause (TableOf Value) :=
    assignments.foldlM (fun table (key, value) => table.assign .braces key value)
      (.empty .inline none)
  table.mapError .because

/-- Takes an inline table whose values `item` takes. -/
def inlineTable (item : Reader Value) : Reader (Span → Value) := do
  char '\x7b'
  let table ← commit <| checked tableOfAssignments do
    let assignments ← separated (char ',') do
      let key ← key
      commit do
        equals
        let value ← item
        spaces
        return (key, value)
    spaces
    return assignments
  ((char '\x7d').commit.named "inline table").expecting (.mark "\x7d")
  return fun span => .table { table with span := some span }

/-- Fails at what is no text, as if it should be one. -/
def asText (reader : Reader (Span → Value)) : Reader (Span → Value) :=
  ((reader.named "string").expecting (.mark "\"")).expecting (.mark "'")

/-- Takes a value that `word` stands for. -/
def constant (word : List Char) (value : Span → Value) : Reader (Span → Value) := do
  Reader.word word
  return value

/-- Takes a value; `item` takes those inside of it, if there may be any. -/
def valueAround (item : Option (Reader Value)) : Reader Value := spanned do
  let nested := fun (reader : Reader Value → Reader (Span → Value)) =>
    match item with
    | some item => reader item
    | none => refuse true (.because .tooDeep)
  let c ← look anyChar
  if c = '"' ∨ c = '\'' then .text <$> quoted
  else if c = '[' then nested array
  else if c = '\x7b' then nested inlineTable
  else if c = '+' ∨ c = '-' ∨ c.isDigit then
    (do moment; return .moment) <|> .float <$> float <|> .integer <$> integer
  else if c = '_' then (.integer <$> integer).expecting (.thing "leading digit")
  else if c = '.' then (.float <$> float).expecting (.thing "leading digit")
  else if c = 't' then asText (constant ['t', 'r', 'u', 'e'] (.boolean true)).commit
  else if c = 'f' then asText (constant ['f', 'a', 'l', 's', 'e'] (.boolean false)).commit
  else if c = 'i' then asText (.float <$> infinity)
  else if c = 'n' then asText (.float <$> notANumber)
  else asText failure

/-- Takes a value with at most so many values around one another. -/
def valueWithin : Nat → Reader Value
  | 0 => valueAround none
  | depth + 1 => valueAround (some (valueWithin depth))

/-- Takes a value. -/
def value : Reader Value := valueWithin depthLimit

/-! ## Statements -/

/-- Takes what may follow on the line of a statement. -/
def statementEnd : Reader Unit := (lineRest.expecting (.thing "newline")).expecting (.mark "#")

/-- A document under construction: all that has been said, and the keys of the open table. -/
structure Draft where
  root : TableOf Value
  current : List Key

/-- A document before its first statement. -/
def Draft.start : Draft := ⟨.empty .header (some ⟨0, 0⟩), []⟩

/-- Gives a key of the open table a value. -/
def Draft.assign (draft : Draft) (key : DottedKey) (value : Value) : Except Cause Draft :=
  (draft.root.alterAt .header change [] draft.current).map fun root => { draft with root }
where
  change (table : TableOf Value) : Except Cause (TableOf Value) :=
    (table.assign (.header (names draft.current)) key value).map (.extendTo value)

/-- Takes an assignment. -/
def Draft.assignment (draft : Draft) : Reader Draft :=
  checked (fun (key, value) => (draft.assign key value).mapError .because) do
    let key ← key
    commit do
      equals
      let value ← value
      statementEnd
      return (key, value)

/-- Takes a header between brackets, and the table that it opens. -/
def headerWithin (opening closing : String) : Reader (DottedKey × Span) := do
  let opened ← spanned do
    word opening.toList
    let key ← key.commit
    (((word closing.toList).commit.expecting (.mark ".")).expecting (.mark closing))
    return fun span => (key, span)
  statementEnd.commit
  return opened

/-- Takes a header. -/
def Draft.header (draft : Draft) : Reader Draft := named "table header" do
  match ← look (do return (← anyChar, ← anyChar)) with
  | ('[', '[') => checked (opens (·.openNext)) (headerWithin "[[" "]]")
  | _ => checked (opens (·.openTable)) (headerWithin "[" "]")
where
  opens (opening : TableOf Value → DottedKey → Span → Except Cause (TableOf Value))
      (opened : DottedKey × Span) : Except Fault Draft :=
    match opening draft.root opened.1 opened.2 with
    | .ok root => .ok ⟨root, opened.1.parts⟩
    | .error cause => .error (.because cause)

/-- Takes the end of a line without a statement. -/
def emptyLineEnd : Reader Unit := do
  match ← look anyChar with
  | '#' => commit do
    comment
    lineEnd
  | _ => newline

/-- Takes a statement, or the end of a line without one, with the spaces after it. -/
def Draft.statement (draft : Draft) : Reader Draft := do
  let c ← look anyChar
  let draft ←
    if endsLine c then (fun () => draft) <$> emptyLineEnd
    else if c = '[' then draft.header.commit
    else draft.assignment.commit
  spaces
  return draft

/-! ## Documents -/

/-- Takes a document. A byte order mark may stand before it. -/
def document : Reader (TableOf Value) := do
  let _ ← opt (char '\ufeff')
  spaces
  let draft ← loop Draft.statement .start
  atEnd
  return draft.root

end TileCensus.Toml
