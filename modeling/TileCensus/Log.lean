import TileCensus.Diagnostic
import TileCensus.Text.Digits

/-!
# Logs

What a run tells while it goes on. Every diagnostic is logged when it is found, so the
diagnostics of a run are part of its log. How much of a log is shown is a matter of a threshold.
What is shown cannot command a terminal: characters that could are shown by their numbers.
-/

namespace TileCensus

/-! ## Levels -/

/-- How much an entry matters. -/
inductive LogLevel where
  | trace
  | debug
  | info
  | warn
  | error
deriving DecidableEq, Repr

namespace LogLevel

/-- Every level, from the least. -/
def all : List LogLevel := [.trace, .debug, .info, .warn, .error]

/-- The name of a level. -/
def label : LogLevel → String
  | trace => "TRACE"
  | debug => "DEBUG"
  | info => "INFO"
  | warn => "WARN"
  | error => "ERROR"

/-- The level with a name in either case. -/
def ofLabel? (label : String) : Option LogLevel :=
  all.find? fun level => level.label.toList = label.toList.map Char.toUpper

/-- The place of a level among all. -/
def rank : LogLevel → Nat
  | trace => 0
  | debug => 1
  | info => 2
  | warn => 3
  | error => 4

/-- The level from which on entries are shown: the one that is asked for by name, and without a
name `info`, or `debug` in a verbose run. A name that is no level shows nothing. -/
def threshold? (name : Option String) (verbose : Bool) : Option LogLevel :=
  match name with
  | some name => ofLabel? name
  | none => some (if verbose then debug else info)

end LogLevel

/-! ## Entries -/

/-- An entry of a log. -/
inductive LogEntry where
  | note (level : LogLevel) (text : String)
  | found (diagnostic : Diagnostic)
deriving DecidableEq, Repr

/-- What a run has told so far. -/
abbrev Log := List LogEntry

namespace LogEntry

/-- The level of an entry. -/
def level : LogEntry → LogLevel
  | note level _ => level
  | found _ => .debug

/-- The text of an entry. -/
def text : LogEntry → String
  | note _ text => text
  | found diagnostic => diagnostic.text

/-- An entry of common interest. -/
def info (text : String) : LogEntry := note .info text

end LogEntry

/-! ## Showing -/

/-- The control characters of ASCII that commands to a terminal are made of. -/
def commandChars : List Char := ['\x07', '\x08', '\x0c', '\x1b', '\x7f']

/-- A character as it is shown in a log. The control characters after ASCII are commands, too. -/
def shownChar (c : Char) : List Char :=
  if c ∈ commandChars then ['\\', 'x'] ++ Text.hexPair c.toNat
  else if 0x80 ≤ c.toNat ∧ c.toNat ≤ 0x9F then
    ['\\', 'u', '\x7b'] ++ Text.hexPair c.toNat ++ ['\x7d']
  else [c]

/-- The text of an entry as it is shown. -/
def LogEntry.shownText (entry : LogEntry) : String :=
  String.ofList (entry.text.toList.flatMap shownChar)

namespace Log

/-- The diagnostics of a log. -/
def diagnostics (log : Log) : List Diagnostic :=
  log.filterMap fun
    | .found diagnostic => some diagnostic
    | .note .. => none

/-- The entries from a level on; none without a level. -/
def shown (threshold : Option LogLevel) (log : Log) : Log :=
  match threshold with
  | some least => log.filter fun entry => least.rank ≤ entry.level.rank
  | none => []

end Log
end TileCensus
