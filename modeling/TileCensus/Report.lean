import TileCensus.Census
import TileCensus.Json

/-!
# The report

The report says in one file what the census has found: the size of the tile space, how many
symbols there are, the marked tiles of every bitmap under its name, the actions that no actor can
display, and how many diagnostics of each kind there are.
-/

namespace TileCensus

/-- The tiles of one bitmap, and how many they are. -/
structure BitmapReport where
  marked : Nat
  tiles : List Nat
deriving DecidableEq, Repr

/-- The report on a bitmap. -/
def BitmapReport.ofBitmap (bitmap : Tile.Bitmap) : BitmapReport := ⟨bitmap.count, bitmap.marked⟩

/-- The report on a census. -/
structure Report where
  maxTiles : Nat
  summary : Script.SymbolSummary
  bitmaps : Table String BitmapReport
  unusedActions : NameSet
  diagnostics : List (DiagnosticKind × Nat)

namespace Report

/-- Reports a census. -/
def ofCensus (census : Census) : Report where
  maxTiles := census.actorFrames.size
  summary := census.summary
  bitmaps := .ofList (census.bitmaps.map fun (stem, bitmap) => (stem, BitmapReport.ofBitmap bitmap))
  unusedActions := census.unusedActions
  diagnostics := Diagnostic.counts census.diagnostics

/-- A report as a JSON value. -/
def toJson (report : Report) : Json :=
  .object
    [("maxtiles", .number report.maxTiles),
     ("summary", .object (report.summary.fields.map fun (name, n) => (name, .number n))),
     ("bitmaps", .object (report.bitmaps.toList.map fun (stem, bitmap) =>
       (stem, .object
         [("marked", .number bitmap.marked), ("tiles", .array (bitmap.tiles.map .number))]))),
     ("unused_actions", .array (report.unusedActions.toList.map .text)),
     ("diagnostics", .object (report.diagnostics.map fun (kind, n) => (kind.key, .number n)))]

/-- A report as a text. -/
def text (report : Report) : String := report.toJson.layout 0 ++ "\n"

end Report
end TileCensus
