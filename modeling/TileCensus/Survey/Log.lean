import TileCensus.Census
import TileCensus.Log

/-!
# The log of a survey

What is told about each pass over a corpus: the scopes of every script as they open and close,
what was found, and how much of it there is. The diagnostics in the log are those of the survey,
in the same order.
-/

namespace TileCensus

open Script

/-- A clause that opens or closes a scope, as it is told. -/
def Script.Clause.log (line : Nat) : Clause → Log
  | .opened scope =>
    let kind := scope.kind.label
    let name := scope.name
    [.note .trace s!"line {line}: open {kind} {name}"]
  | .closed scope =>
    let kind := scope.kind.label
    let name := scope.name
    [.note .trace s!"line {line}: close {kind} {name}"]
  | _ => []

/-- What is told about a script. -/
def Script.Reading.log (path : String) (reading : Reading) : Log :=
  let count := reading.tokenCount
  (reading.clauses.flatMap fun (line, clause) => clause.log line) ++
    reading.violation.toList.map .found ++ [.info s!"Parsed file {path} ({count} tokens)"]

/-- What is told about the symbols of all scripts. -/
def Script.SymbolSummary.log (summary : SymbolSummary) : Log :=
  let fields := summary.fields.map fun (name, count) => name ++ ": " ++ toString count
  [.info ("SymbolSummary \x7b " ++ String.intercalate ", " fields ++ " \x7d")]

/-- What is told about the actions that actors can display. -/
def Script.Resolution.log (resolution : Resolution) : Log :=
  let actors := resolution.actorActions.size
  let unused := resolution.unusedActions.size
  resolution.diagnostics.map .found ++ [.info s!"Resolved {actors} actors, {unused} unused actions"]

/-- What is told about the problems among findings. -/
def Finding.log {κ : Type} (findings : List (Finding κ)) : Log :=
  (diagnostics findings).map .found

/-- What is told about a source of instance lines. -/
def Instance.Source.log (source : Instance.Source) (findings : List (Finding Instance.Category)) :
    Log :=
  let path := source.path
  let count := Finding.markCount findings
  let stem := source.rule.category.stem
  Finding.log findings ++ [.info s!"Scanned {path} ({count} {stem} marks)"]

/-- What is told about the bitmaps of all instance lines. -/
def Instance.Tiles.log (tiles : Instance.Tiles) : Log :=
  Instance.Category.all.map fun category =>
    let stem := category.stem
    let count := (tiles.get category).count
    .info s!"Number of distinct {stem}: {count}"

/-- What is told about the bitmaps of definitions. -/
def Definition.Tiles.log (tiles : Definition.Tiles) : Log :=
  Definition.Target.all.map fun target =>
    let stem := target.stem
    let count := (tiles.get target).count
    .info s!"Number of {stem} tiles: {count}"

/-- What is told about a survey of scripts with given paths, and the census it gives. -/
def Survey.log (survey : Survey) (paths : List String) (census : Census) : Log :=
  let frames := census.actorFrames.count
  ((paths.zip survey.readings).flatMap fun (path, reading) => reading.log path) ++
    census.summary.log ++ survey.resolution.log ++ Finding.log survey.frames ++
    [.info s!"Number of tiles that are part of actor frames: {frames}"] ++
    (survey.instances.flatMap fun (source, findings) => source.log findings) ++
    census.instances.log ++
    (survey.definitions.map Finding.log).getD [] ++
    (census.definitions.map Definition.Tiles.log).getD []

end TileCensus
