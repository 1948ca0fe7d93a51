import TileCensus.Constants
import TileCensus.Finding
import TileCensus.Instance.Line

/-!
# Scanning instance lines

Every keyword of a rule on a line of its file is one occurrence, and an occurrence is found in
exactly one way: its argument is missing, or it is a known variable and says nothing, or it is not
known, or its tile is marked, or its tile lies outside the tile space. Which of them depends on
the occurrence alone.
-/

namespace TileCensus.Instance

open Text Tile

/-- A file of instance lines with the rule it is scanned by. -/
structure Source where
  rule : Rule
  path : String
  text : String
deriving DecidableEq, Repr

/-- What an argument is looked up in. -/
structure Lookup where
  maxTiles : Nat
  constants : Constants
  variableNames : NameSet

/-! ## What there is to report -/

/-- A keyword has no token at its rule's offset. -/
def missingArgument (location : Location) (offset : Nat) (line : String) : Diagnostic :=
  ⟨.missingArgument, some location, s!"no argument at offset {offset}: {line}"⟩

/-- An argument stands for no number. -/
def unknownArgument (location : Location) (name line : String) : Diagnostic :=
  ⟨.unresolvedName, some location, s!"name '{name}' is unknown: {line}"⟩

/-- An argument stands for no tile of the space. -/
def argumentOutOfRange (location : Location) (name : String) (reason : RangeError) : Diagnostic :=
  let reason := reason.message
  ⟨.tileOutOfRange, some location, s!"'{name}': {reason}"⟩

/-! ## Scanning -/

/-- What is found for one occurrence on a cleaned line. A known variable gives nothing. -/
def occurrenceFinding? (lookup : Lookup) (rule : Rule) (location : Location) (line : String)
    (argument : Option String) : Option (Finding Category) :=
  match argument with
  | none => some (.problem (missingArgument location rule.offset line))
  | some token =>
    let name := stripIndex token
    if name ∈ lookup.variableNames then none
    else
      match lookup.constants.resolve? name with
      | none => some (.problem (unknownArgument location name line))
      | some tile =>
        some (.ofRange rule.category lookup.maxTiles (argumentOutOfRange location name)
          (inclusiveRange tile tile lookup.maxTiles))

/-- What is found on one line. -/
def lineFindings (lookup : Lookup) (rule : Rule) (location : Location) (line : List Char) :
    List (Finding Category) :=
  let cleaned := clean line
  (arguments rule ((fields cleaned).map String.ofList)).filterMap
    (occurrenceFinding? lookup rule location (String.ofList cleaned))

/-- What is found in one file. -/
def sourceFindings (lookup : Lookup) (source : Source) : List (Finding Category) :=
  (numbered (lines source.text)).flatMap fun (line, number) =>
    lineFindings lookup source.rule ⟨source.path, number⟩ line

/-! ## Bitmaps -/

/-- One bitmap for each category. -/
structure Tiles where
  actor : Bitmap
  spawn : Bitmap
  projectile : Bitmap
  screen : Bitmap
deriving DecidableEq

/-- The bitmap of a category. -/
def Tiles.get (tiles : Tiles) : Category → Bitmap
  | .actor => tiles.actor
  | .spawn => tiles.spawn
  | .projectile => tiles.projectile
  | .screen => tiles.screen

/-- The bitmaps that findings make. -/
def Tiles.ofFindings (maxTiles : Nat) (findings : List (Finding Category)) : Tiles where
  actor := Finding.bitmap maxTiles .actor findings
  spawn := Finding.bitmap maxTiles .spawn findings
  projectile := Finding.bitmap maxTiles .projectile findings
  screen := Finding.bitmap maxTiles .screen findings

theorem Tiles.get_ofFindings (maxTiles : Nat) (findings : List (Finding Category))
    (category : Category) :
    (ofFindings maxTiles findings).get category = Finding.bitmap maxTiles category findings := by
  cases category <;> rfl

end TileCensus.Instance
