/-!
# Faults

What is wrong with a text that is no TOML document: what was being read, what could have come
next, and what a rule of the format has against it. A fault can lack any of these.
-/

namespace TileCensus.Toml

/-- Something that could have come next. -/
inductive Expectation where
  /-- These very characters. -/
  | mark (text : String)
  /-- Anything of that name. -/
  | thing (name : String)
deriving DecidableEq, Repr

/-- The expectation in words. -/
def Expectation.message : Expectation → String
  | mark text => "`" ++ text ++ "`"
  | thing name => name

/-- What a rule of the format has against a text. -/
inductive Cause where
  /-- A key gets a second value where values are not given to the keys of an open table. -/
  | duplicateKey (key : String)
  /-- A key of a table gets a second value. -/
  | duplicateKeyIn (table : List String) (key : String)
  /-- A dotted key enters a value that is no table. -/
  | extendsValue (path : List String) (kind : String)
  | outOfRange
  | tooDeep
  | tooLarge
  | tooSmall
deriving DecidableEq, Repr

/-- A path as it is written. -/
def dotted (path : List String) : String := ".".intercalate path

/-- The cause in words. -/
def Cause.message : Cause → String
  | duplicateKey key => s!"duplicate key `{key}`"
  | duplicateKeyIn [] key => s!"duplicate key `{key}` in document root"
  | duplicateKeyIn table key => s!"duplicate key `{key}` in table `{dotted table}`"
  | extendsValue path kind =>
    s!"dotted key `{dotted path}` attempted to extend non-table type ({kind})"
  | outOfRange => "value is out of range"
  | tooDeep => "recursion limit exceeded"
  | tooLarge => "number too large to fit in target type"
  | tooSmall => "number too small to fit in target type"

/-- What is wrong at a place. -/
structure Fault where
  /-- What was being read there. -/
  label : Option String := none
  /-- What could have come next. -/
  expected : List Expectation := []
  cause : Option Cause := none
deriving DecidableEq, Repr

namespace Fault

/-- A fault of which nothing but the cause is known. -/
def because (cause : Cause) : Fault := { cause := some cause }

/-- What was being read, unless a part of it is known already. -/
def named (label : String) (fault : Fault) : Fault :=
  { fault with label := fault.label.or (some label) }

/-- A further thing that could have come next. -/
def expecting (what : Expectation) (fault : Fault) : Fault :=
  { fault with expected := fault.expected ++ [what] }

/-- The lines of the fault in words. -/
def lines (fault : Fault) : List String :=
  fault.label.toList.map ("invalid " ++ ·) ++
    (if fault.expected.isEmpty then []
      else ["expected " ++ ", ".intercalate (fault.expected.map Expectation.message)]) ++
    fault.cause.toList.map Cause.message

/-- The fault in words. -/
def message (fault : Fault) : String := "\n".intercalate fault.lines

end Fault
end TileCensus.Toml
