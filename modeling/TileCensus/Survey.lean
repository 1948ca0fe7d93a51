import TileCensus.Definition.Scan
import TileCensus.Frames
import TileCensus.Instance.Scan
import TileCensus.Script.Reach
import TileCensus.Script.Reading

/-!
# Surveys

A corpus is everything that a run reads, after it has been read and before anything has been made
of it. A survey is all that is found in a corpus, pass by pass: the scripts are read, their symbols
are resolved, the frames of actors are placed, and the instance lines and the definitions are
scanned. The passes look at nothing but the corpus and the passes before them.
-/

namespace TileCensus

open Script

/-- The inputs of a run. -/
structure Corpus where
  /-- The number of tiles in the tile space; the tile numbers are those below it. -/
  maxTiles : Nat
  constants : Constants
  variableNames : NameSet
  scripts : List Source
  instances : List Instance.Source
  definitions : Option Source

/-- All that is found in a corpus. -/
structure Survey where
  readings : List Reading
  tables : SymbolTables
  resolution : Resolution
  frames : List (Finding Unit)
  /-- What is found in each source of instance lines. -/
  instances : List (Instance.Source × List (Finding Instance.Category))
  definitions : Option (List (Finding Definition.Target))

/-- Surveys a corpus. -/
def Corpus.survey (corpus : Corpus) : Survey :=
  let readings := corpus.scripts.map Reading.ofSource
  let tables := SymbolTables.empty.recordReadings readings
  let resolution := tables.resolve
  let lookup : Instance.Lookup := ⟨corpus.maxTiles, corpus.constants, corpus.variableNames⟩
  { readings
    tables
    resolution
    frames := frameFindings corpus.maxTiles corpus.constants tables resolution.actorActions
    instances := corpus.instances.map fun source =>
      (source, Instance.sourceFindings lookup source)
    definitions :=
      corpus.definitions.map (Definition.sourceFindings corpus.maxTiles corpus.constants) }

namespace Corpus

variable (corpus : Corpus)

theorem survey_readings : corpus.survey.readings = corpus.scripts.map Reading.ofSource := rfl

theorem survey_tables : corpus.survey.tables = .ofSources corpus.scripts := rfl

theorem survey_resolution :
    corpus.survey.resolution = (SymbolTables.ofSources corpus.scripts).resolve := rfl

theorem survey_frames :
    corpus.survey.frames =
      frameFindings corpus.maxTiles corpus.constants (.ofSources corpus.scripts)
        corpus.survey.resolution.actorActions := rfl

end Corpus

namespace Survey

/-- What is found in instance lines. -/
def instanceFindings (survey : Survey) : List (Finding Instance.Category) :=
  survey.instances.flatMap (·.2)

/-- What there is to report, pass after pass. -/
def diagnostics (survey : Survey) : List Diagnostic :=
  survey.readings.filterMap (·.violation) ++ survey.resolution.diagnostics ++
    Finding.diagnostics survey.frames ++ Finding.diagnostics survey.instanceFindings ++
    (survey.definitions.map Finding.diagnostics).getD []

end Survey
end TileCensus
