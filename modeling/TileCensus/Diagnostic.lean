/-!
# Sources and diagnostics

The text files a run reads are carried around with the path they were read from, which is what
locations and messages name. Lines are counted without a bound: texts are taken to have fewer than
2^32 lines, so a count of 32 bits would be the same.

Diagnostics are what a run has to say about its inputs. A diagnostic never ends a run: each reading
returns the diagnostics it found, in the order it found them, and they are printed once at the end,
one line each, followed by one line for each kind that occurs.
-/

namespace TileCensus

/-! ## Sources -/

/-- A file with its text. -/
structure Source where
  path : String
  text : String
deriving DecidableEq, Repr

/-- A line of a file. Lines count from one. -/
structure Location where
  file : String
  line : Nat
deriving DecidableEq, Repr

/-- A location as it is printed. -/
def Location.text (location : Location) : String := location.file ++ ":" ++ toString location.line

/-! ## Kinds -/

/-- The kinds of problem, in the order in which their totals are listed. -/
inductive DiagnosticKind where
  /-- A definitions or variable record that could not be understood. -/
  | malformedRecord
  /-- A name that is neither a literal nor a known constant. -/
  | unresolvedName
  /-- An action that an actor can reach and that has no definition. -/
  | undefinedAction
  /-- An AI routine that an actor can reach and that has no definition. -/
  | undefinedAi
  /-- A defined action that no actor can reach. -/
  | unusedAction
  /-- A tile number or a range of them outside the tile space. -/
  | tileOutOfRange
  /-- Broken nesting of actors, states and events; the rest of the file is left out. -/
  | scopeViolation
  /-- A keyword with no argument where one is expected. -/
  | missingArgument
  /-- A file of instance lines that a rule names and that is not there. -/
  | missingInput
deriving DecidableEq, Repr

namespace DiagnosticKind

/-- Every kind, in order. -/
def all : List DiagnosticKind :=
  [.malformedRecord, .unresolvedName, .undefinedAction, .undefinedAi, .unusedAction,
   .tileOutOfRange, .scopeViolation, .missingArgument, .missingInput]

/-- How a kind reads in printed diagnostics. -/
def label : DiagnosticKind → String
  | malformedRecord => "malformed record"
  | unresolvedName => "unresolved name"
  | undefinedAction => "undefined action"
  | undefinedAi => "undefined ai"
  | unusedAction => "unused action"
  | tileOutOfRange => "tile out of range"
  | scopeViolation => "scope violation"
  | missingArgument => "missing argument"
  | missingInput => "missing input"

/-- The key of a kind in the report. -/
def key : DiagnosticKind → String
  | malformedRecord => "malformed_record"
  | unresolvedName => "unresolved_name"
  | undefinedAction => "undefined_action"
  | undefinedAi => "undefined_ai"
  | unusedAction => "unused_action"
  | tileOutOfRange => "tile_out_of_range"
  | scopeViolation => "scope_violation"
  | missingArgument => "missing_argument"
  | missingInput => "missing_input"

theorem mem_all (kind : DiagnosticKind) : kind ∈ all := by cases kind <;> decide

theorem key_injective : Function.Injective key := by
  intro first second same
  cases first <;> cases second <;> first | rfl | (revert same; decide)

end DiagnosticKind

/-! ## Diagnostics -/

/-- One problem, with the place it was found at when it has one. -/
structure Diagnostic where
  kind : DiagnosticKind
  location : Option Location
  message : String
deriving DecidableEq, Repr

namespace Diagnostic

/-- A diagnostic as it is printed. -/
def text (diagnostic : Diagnostic) : String :=
  match diagnostic.location with
  | some location =>
    location.text ++ ": " ++ diagnostic.kind.label ++ ": " ++ diagnostic.message
  | none => diagnostic.kind.label ++ ": " ++ diagnostic.message

/-- How many diagnostics are of a kind. -/
def countOf (kind : DiagnosticKind) (diagnostics : List Diagnostic) : Nat :=
  diagnostics.countP (·.kind = kind)

@[simp] theorem countOf_append (kind : DiagnosticKind) (first second : List Diagnostic) :
    countOf kind (first ++ second) = countOf kind first + countOf kind second :=
  List.countP_append

/-- The kinds that occur with how often they do, in the order of kinds. -/
def counts (diagnostics : List Diagnostic) : List (DiagnosticKind × Nat) :=
  (DiagnosticKind.all.map fun kind => (kind, countOf kind diagnostics)).filter (·.2 ≠ 0)

/-- The printed lines: every diagnostic, then the total of each kind that occurs. -/
def printedLines (diagnostics : List Diagnostic) : List String :=
  diagnostics.map text ++
    (counts diagnostics).map fun (kind, count) => toString count ++ " x " ++ kind.label

/-- The printed lines as one text. -/
def printed (diagnostics : List Diagnostic) : String :=
  String.join ((printedLines diagnostics).map (· ++ "\n"))

end Diagnostic
end TileCensus
