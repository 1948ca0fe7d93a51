import TileCensus.Survey

/-!
# The census

The result of a run: which tiles are used in which way, and what there is to report. The bitmaps
have names, and there are five of them, or eight when a definitions file was given.
-/

namespace TileCensus

open Tile

/-- The result of a run. -/
structure Census where
  actorFrames : Bitmap
  instances : Instance.Tiles
  definitions : Option Definition.Tiles
  summary : Script.SymbolSummary
  unusedActions : NameSet
  diagnostics : List Diagnostic

/-- The census that a survey gives in a tile space, after what loading had to report. -/
def Survey.census (survey : Survey) (maxTiles : Nat) (loading : List Diagnostic) : Census where
  actorFrames := Finding.bitmap maxTiles () survey.frames
  instances := Instance.Tiles.ofFindings maxTiles survey.instanceFindings
  definitions := survey.definitions.map (Definition.Tiles.ofFindings maxTiles)
  summary := survey.tables.summary
  unusedActions := survey.resolution.unusedActions
  diagnostics := loading ++ survey.diagnostics

/-- The census of a corpus, after what loading it had to report. -/
def Corpus.census (corpus : Corpus) (loading : List Diagnostic) : Census :=
  corpus.survey.census corpus.maxTiles loading

namespace Census

/-- The name of the bitmap of actor frames. -/
def actorFramesStem : String := "actor_frames"

/-- Every bitmap with its name, in the order they are written. -/
def bitmaps (census : Census) : List (String × Bitmap) :=
  (actorFramesStem, census.actorFrames) ::
    (Instance.Category.all.map fun category =>
      (category.stem, census.instances.get category)) ++
    (census.definitions.map fun tiles =>
      Definition.Target.all.map fun target => (target.stem, tiles.get target)).getD []

end Census
end TileCensus
