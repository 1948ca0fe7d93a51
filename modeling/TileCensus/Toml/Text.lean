import TileCensus.Text.Digits
import TileCensus.Toml.Reader

/-!
# TOML text

Blanks, line ends and comments, and texts in quotes. A text in double quotes may hold escapes,
one in single quotes stands for itself. Three quotes begin a text of several lines: a line end
right after them is left out, every line end counts as a line feed, and a backslash at the end of
a line swallows the blanks and line ends that follow. Up to two quotes may stand directly before
the three that end it.
-/

namespace TileCensus.Toml

open Reader

/-! ## Blanks and line ends -/

/-- Characters that separate the parts of a line. -/
def isSpace (c : Char) : Bool := c = ' ' || c = '\t'

/-- Characters that comments and texts may hold: all but the control characters, with the tab. -/
def isTextChar (c : Char) : Bool := c = '\t' || (0x20 ≤ c.toNat && c.toNat ≠ 0x7F)

/-- Skips spaces and tabs. -/
def spaces : Reader Unit := do
  let _ ← run isSpace

/-- Takes a line feed, or a carriage return with a line feed. -/
def newline : Reader Unit := do
  match ← anyChar with
  | '\n' => return
  | '\r' => char '\n'
  | _ => failure

/-- Takes a comment. -/
def comment : Reader Unit := do
  char '#'
  let _ ← run isTextChar

/-- Takes the end of a line, which may be that of the text. -/
def lineEnd : Reader Unit := newline <|> atEnd

/-- Takes what may stand after the last part of a line. -/
def lineRest : Reader Unit := do
  spaces
  let _ ← opt comment
  lineEnd

/-- Whether a line has nothing more to say before this character. -/
def endsLine (c : Char) : Bool := c = '#' || c = '\n' || c = '\r'

/-- Takes the end of a line with its comment, and the blanks of the next line. -/
def brokenGap : Reader Unit := do
  let _ ← opt comment
  newline
  spaces

/-- Skips spaces, line ends and comments. A comment has to end its line, and a carriage return
has to begin a line end. -/
def gap : Reader Unit := do
  spaces
  let _ ← many brokenGap
  if (← peek).any endsLine then brokenGap

/-! ## Escapes -/

/-- Takes the number of a character in hexadecimal digits. -/
def scalar (digits : Nat) : Reader Char :=
  (exactly (fun c => (Text.hexDigit? c).isSome) digits).checked fun taken =>
    match Text.hexadecimal? taken with
    | some n => if n.isValidChar then .ok (Char.ofNat n) else .error (.because .outOfRange)
    | none => .error {}

/-- Takes the character that says which escape it is, if it has one byte. -/
def escapeMark : Reader (Option Char) := do
  let c ← look anyChar
  if c.utf8Size = 1 then some <$> anyChar else return none

/-- Fails at what is no escape. -/
def noEscape : Reader Char :=
  ["b", "f", "n", "r", "t", "u", "U", "\\", "\""].foldl (fun reader c => reader.expecting (.mark c))
    ((refuse true {}).named "escape sequence")

/-- Takes an escape. -/
def escape : Reader Char := do
  char '\\'
  match ← escapeMark with
  | some 'b' => return '\x08'
  | some 'f' => return '\x0c'
  | some 'n' => return '\n'
  | some 'r' => return '\r'
  | some 't' => return '\t'
  | some '\\' => return '\\'
  | some '"' => return '"'
  | some 'u' => (scalar 4).commit.named "unicode 4-digit hex code"
  | some 'U' => (scalar 8).commit.named "unicode 8-digit hex code"
  | _ => noEscape

/-! ## Texts of one line -/

/-- Characters that stand for themselves between double quotes. -/
def isBasicChar (c : Char) : Bool := isTextChar c && c ≠ '"' && c ≠ '\\'

/-- Characters that may stand between single quotes. -/
def isLiteralChar (c : Char) : Bool := isTextChar c && c ≠ '\''

/-- Takes a piece of a text in double quotes. -/
def basicPiece : Reader (List Char) := someRun isBasicChar <|> List.singleton <$> escape

/-- Takes a text of one line in double quotes. -/
def basic : Reader (List Char) := do
  char '"'
  let pieces ← many basicPiece
  (char '"').commit.named "basic string"
  return pieces.flatten

/-- Takes a text of one line in single quotes. -/
def literal : Reader (List Char) := named "literal string" do
  char '\''
  let taken ← run isLiteralChar
  commit (char '\'')
  return taken

/-! ## Texts of several lines -/

/-- Takes a line end that is part of a text. -/
def brokenLine : Reader (List Char) := do
  newline
  return ['\n']

/-- Takes a backslash at the end of a line with the blanks and line ends after it. -/
def continuation : Reader (List Char) := do
  char '\\'
  spaces
  newline
  let _ ← many (newline <|> do let _ ← someRun isSpace)
  return []

/-- Takes a piece of a text of several lines in double quotes. -/
def basicLinesPiece : Reader (List Char) :=
  someRun isBasicChar <|> continuation <|> List.singleton <$> escape <|> brokenLine

/-- Takes a piece of a text of several lines in single quotes. -/
def literalLinesPiece : Reader (List Char) := someRun isLiteralChar <|> brokenLine

/-- Takes one or two quotes that stand before what another reader takes. -/
def quotesBefore (quote : Char) {α : Type} (next : Reader α) : Reader (List Char) :=
  let exactlySo := fun (quotes : List Char) => do
    word quotes
    let _ ← look next
    return quotes
  exactlySo [quote, quote] <|> exactlySo [quote]

/-- Takes the pieces of a text of several lines, with all quotes before the three that end it.
`after` takes the pieces after quotes that stand in the text. -/
def linesBody (quote : Char) (piece : Reader (List Char)) (after : Reader (List (List Char))) :
    Reader (List Char) := do
  let first ← many piece
  let others ← many do
    let quotes ← quotesBefore quote (one (· ≠ quote))
    return quotes ++ (← after).flatten
  let last ← opt (quotesBefore quote (word [quote, quote, quote]))
  return first.flatten ++ others.flatten ++ last.getD []

/-- Takes what is between three double quotes. Quotes are taken as soon as something else follows
them: where that is no piece of a text, the fault is after them. -/
def basicLinesBody : Reader (List Char) := linesBody '"' basicLinesPiece (many basicLinesPiece)

/-- Takes what is between three single quotes. Quotes are only taken with a piece that follows them:
where there is none, the fault is at the quotes. -/
def literalLinesBody : Reader (List Char) :=
  linesBody '\'' literalLinesPiece (someOf literalLinesPiece)

/-- Takes a text of several lines between three quotes. -/
def severalLines (label : String) (quote : Char) (body : Reader (List Char)) :
    Reader (List Char) := named label do
  word [quote, quote, quote]
  let _ ← opt newline
  let taken ← commit body
  commit (word [quote, quote, quote])
  return taken

/-! ## Texts -/

/-- Takes a text in quotes. -/
def quoted : Reader String :=
  String.ofList <$>
    (severalLines "multiline basic string" '"' basicLinesBody <|> basic <|>
      severalLines "multiline literal string" '\'' literalLinesBody <|> literal)

end TileCensus.Toml
