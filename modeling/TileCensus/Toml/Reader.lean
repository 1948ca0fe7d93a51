import TileCensus.Text.Excerpt
import TileCensus.Toml.Fault

/-!
# Readers

A reader takes a value from the front of a text, or fails and says where it stopped. A failure is
soft or final. A soft one says that the text is no case of what the reader takes: an alternative may
be tried in its place, and a repetition ends in front of it. A final one says that the text is such
a case, but a broken one, and ends all reading.

Every repeated reader has to take something, so there are no more repetitions than characters, and
the text itself bounds them (`loopFrom`).
-/

namespace TileCensus.Toml

open Text

/-- A place in a text: how many bytes are before it, and the text that is left. -/
structure Cursor where
  offset : Nat
  rest : List Char
deriving DecidableEq, Repr

/-- Why and where a reader stopped. -/
structure Failure where
  isFinal : Bool
  fault : Fault
  offset : Nat
deriving DecidableEq, Repr

/-- Takes a value from the front of a text, or fails. -/
def Reader (α : Type) : Type := Cursor → Except Failure (α × Cursor)

namespace Reader

variable {α β σ : Type}

instance : Monad Reader := inferInstanceAs (Monad (StateT Cursor (Except Failure)))

/-- Fails at the place that has been reached. -/
def refuse (isFinal : Bool) (fault : Fault) : Reader α := fun cursor =>
  .error ⟨isFinal, fault, cursor.offset⟩

/-! ## Characters -/

/-- The next character; none at the end. -/
def peek : Reader (Option Char) := fun cursor => .ok (cursor.rest.head?, cursor)

/-- Takes the next character if it stands for a value. -/
def oneOf (value? : Char → Option α) : Reader α := fun cursor =>
  match cursor.rest with
  | [] => refuse false {} cursor
  | c :: rest =>
    match value? c with
    | some value => .ok (value, ⟨cursor.offset + c.utf8Size, rest⟩)
    | none => refuse false {} cursor

/-- Takes the next character if it is in a class. -/
def one (accept : Char → Bool) : Reader Char := oneOf (Option.guard accept)

/-- Takes the next character. -/
def anyChar : Reader Char := oneOf some

/-- Takes a given character. -/
def char (c : Char) : Reader Unit := oneOf fun next => if next = c then some () else none

/-- Takes given characters. -/
def word (expected : List Char) : Reader Unit := fun cursor =>
  if expected.isPrefixOf cursor.rest then
    .ok ((), ⟨cursor.offset + byteLength expected, cursor.rest.drop expected.length⟩)
  else refuse false {} cursor

/-- Takes the longest run of characters in a class. -/
def run (accept : Char → Bool) : Reader (List Char) := fun cursor =>
  let taken := cursor.rest.takeWhile accept
  .ok (taken, ⟨cursor.offset + byteLength taken, cursor.rest.dropWhile accept⟩)

/-- Takes the longest run of characters in a class, which has at least one. -/
def someRun (accept : Char → Bool) : Reader (List Char) := do
  match ← run accept with
  | [] => refuse false {}
  | taken => return taken

/-- Takes as many characters of a class as there should be. -/
def exactly (accept : Char → Bool) (count : Nat) : Reader (List Char) := fun cursor =>
  let taken := cursor.rest.take count
  if taken.length = count ∧ taken.all accept then
    .ok (taken, ⟨cursor.offset + byteLength taken, cursor.rest.drop count⟩)
  else refuse false {} cursor

/-- Takes the end of the text. -/
def atEnd : Reader Unit := fun cursor =>
  if cursor.rest.isEmpty then .ok ((), cursor) else refuse false {} cursor

/-! ## Failures -/

/-- Changes the failure of a reader. -/
def onFailure (change : Failure → Failure) (reader : Reader α) : Reader α := fun cursor =>
  (reader cursor).mapError change

/-- Makes every failure final. -/
def commit (reader : Reader α) : Reader α :=
  reader.onFailure fun failure => { failure with isFinal := true }

/-- Names what is being read. -/
def named (label : String) (reader : Reader α) : Reader α :=
  reader.onFailure fun failure => { failure with fault := failure.fault.named label }

/-- Says what could come next where a reader fails. -/
def expecting (what : Expectation) (reader : Reader α) : Reader α :=
  reader.onFailure fun failure => { failure with fault := failure.fault.expecting what }

/-! ## Choice -/

/-- Tries a second reader where the first one fails softly. -/
def otherwise (first second : Reader α) : Reader α := fun cursor =>
  match first cursor with
  | .error ⟨false, _, _⟩ => second cursor
  | outcome => outcome

instance : Alternative Reader where
  failure := refuse false {}
  orElse first second := first.otherwise (second ())

/-- Takes something that may be missing. -/
def opt (reader : Reader α) : Reader (Option α) := some <$> reader <|> pure none

/-- What a reader takes, without taking it. -/
def look (reader : Reader α) : Reader α := fun cursor =>
  match reader cursor with
  | .ok (value, _) => .ok (value, cursor)
  | .error failure => .error { failure with offset := cursor.offset }

/-! ## Checks -/

/-- Makes another value of what a reader takes, or fails where that began. -/
def checkedAs (isFinal : Bool) (check : α → Except Fault β) (reader : Reader α) : Reader β :=
  fun cursor =>
    match reader cursor with
    | .error failure => .error failure
    | .ok (value, next) =>
      match check value with
      | .ok value => .ok (value, next)
      | .error fault => refuse isFinal fault cursor

/-- Makes another value of what a reader takes; fails softly if there is none. -/
def checked (check : α → Except Fault β) (reader : Reader α) : Reader β :=
  reader.checkedAs false check

/-- Takes a value with the stretch that it takes up. -/
def spanned (reader : Reader (Span → α)) : Reader α := fun cursor =>
  match reader cursor with
  | .error failure => .error failure
  | .ok (ofSpan, next) => .ok (ofSpan ⟨cursor.offset, next.offset⟩, next)

/-! ## Repetition -/

/-- Repeats a step from a state as long as it does not fail softly, but not more often than
`bound` has characters and once. -/
def loopFrom (step : σ → Reader σ) (bound : List Char) (state : σ) (cursor : Cursor) :
    Except Failure (σ × Cursor) :=
  match step state cursor with
  | .error ⟨false, _, _⟩ => .ok (state, cursor)
  | .error failure => .error failure
  | .ok (state, next) =>
    match bound with
    | [] => .ok (state, next)
    | _ :: bound => loopFrom step bound state next

/-- Repeats a step from a state as long as it does not fail softly. -/
def loop (step : σ → Reader σ) (state : σ) : Reader σ := fun cursor =>
  loopFrom step cursor.rest state cursor

/-- Takes items as long as there are any. -/
def many (item : Reader α) : Reader (List α) := do
  let taken ← loop (fun taken => (· :: taken) <$> item) []
  return taken.reverse

/-- Takes one item or more. -/
def someOf (item : Reader α) : Reader (List α) := do
  let first ← item
  return first :: (← many item)

/-- Takes one item or more, with separators between them. -/
def someSeparated (separator : Reader Unit) (item : Reader α) : Reader (List α) := do
  let first ← item
  let others ← many do
    separator
    item
  return first :: others

/-- Takes any number of items, with separators between them. -/
def separated (separator : Reader Unit) (item : Reader α) : Reader (List α) := do
  return (← opt (someSeparated separator item)).getD []

end Reader
end TileCensus.Toml
