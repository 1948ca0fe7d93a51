import TileCensus.Script.Clause

/-!
# Reading a script

A script is read twice over. The header lines of the whole file come first, then the clauses of
all lines that are no full action definition, up to the first violation of the nesting of scopes.
What a file says is the facts of both, in that order; it depends on nothing but the file.
-/

namespace TileCensus.Script

/-! ## The two passes -/

/-- What the header lines of a file say. -/
def headerFacts (source : Source) : List Fact :=
  (cleanedText source.text).flatMap fun (line, number) =>
    ((Header.ofWords? (words line)).map (Header.facts ⟨source.path, number⟩)).getD []

/-- The tokens of all lines that are no full action definition. -/
def bodyTokens (text : String) : List Token :=
  (cleanedText text).flatMap fun (line, number) =>
    if ((Header.ofWords? (words line)).map Header.isAction).getD false then []
    else lineTokens line number

/-! ## Readings -/

/-- What was read of a file: its facts, the violation that ended it, and the clauses and the
number of tokens they come from. -/
structure Reading where
  facts : List Fact
  violation : Option Diagnostic
  clauses : List (Nat × Clause)
  tokenCount : Nat

/-- A violation as it is reported. One that is found at the end of the file is reported at the
last line. -/
def violationDiagnostic (source : Source) (violation : ScopeError) : Diagnostic where
  kind := .scopeViolation
  location := some ⟨source.path, violation.line?.getD (Text.lines source.text).length⟩
  message :=
    match violation with
    | .unclosed _ => violation.message
    | _ => violation.message ++ "; rest of file skipped"

/-- Reads one file. -/
def Reading.ofSource (source : Source) : Reading :=
  let tokens := bodyTokens source.text
  let body := readClauses tokens
  { facts :=
      headerFacts source ++
        body.clauses.flatMap fun (line, clause) => clause.facts ⟨source.path, line⟩
    violation :=
      match body.ending with
      | .error violation => some (violationDiagnostic source violation)
      | .ok () => none
    clauses := body.clauses
    tokenCount := tokens.length }

/-- Records what was read of files, in order. -/
def SymbolTables.recordReadings (tables : SymbolTables) (readings : List Reading) : SymbolTables :=
  tables.recordAll (readings.flatMap (·.facts))

/-- The tables of a corpus of scripts. -/
def SymbolTables.ofSources (sources : List Source) : SymbolTables :=
  empty.recordReadings (sources.map Reading.ofSource)

theorem SymbolTables.ofSources_eq (sources : List Source) :
    ofSources sources =
      empty.recordAll (sources.flatMap fun source => (Reading.ofSource source).facts) := by
  rw [ofSources, recordReadings, List.flatMap_map]

end TileCensus.Script
