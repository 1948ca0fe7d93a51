import TileCensus.Constants
import TileCensus.Definition.Token
import TileCensus.Finding

/-!
# Scanning definitions

A definitions file is a sequence of records, some with a block in braces. Outside all blocks,
`tilefromtexture N` gives a tile art and `animtilerange FIRST LAST` makes tiles an animation; the
block after `voxel` gives tiles a model, by `tile N` or by `tile0 FIRST` and `tile1 LAST`.
Everything else is passed over. The scan keeps how deep it is in blocks, whether a voxel block is
awaited, the depth of an open one, and the tile that a `tile0` in it has named.

An argument is the token after its keyword if that is on the same line and no brace, so a brace
is never taken as an argument.
-/

namespace TileCensus.Definition

open Script Tile

/-! ## Bitmaps -/

/-- The bitmaps that definitions are scanned into. -/
inductive Target where
  | nonempty
  | animation
  | voxel
deriving DecidableEq, Repr

namespace Target

/-- Every target, in order. -/
def all : List Target := [.nonempty, .animation, .voxel]

/-- The name of a target's bitmap. -/
def stem : Target → String
  | nonempty => "nonempty"
  | animation => "animation"
  | voxel => "voxel_tiles"

end Target

/-- One bitmap for each target. -/
structure Tiles where
  nonempty : Bitmap
  animation : Bitmap
  voxel : Bitmap
deriving DecidableEq

/-- The bitmap of a target. -/
def Tiles.get (tiles : Tiles) : Target → Bitmap
  | .nonempty => tiles.nonempty
  | .animation => tiles.animation
  | .voxel => tiles.voxel

/-- The bitmaps that findings make. -/
def Tiles.ofFindings (maxTiles : Nat) (findings : List (Finding Target)) : Tiles where
  nonempty := Finding.bitmap maxTiles .nonempty findings
  animation := Finding.bitmap maxTiles .animation findings
  voxel := Finding.bitmap maxTiles .voxel findings

theorem Tiles.get_ofFindings (maxTiles : Nat) (findings : List (Finding Target))
    (target : Target) :
    (ofFindings maxTiles findings).get target = Finding.bitmap maxTiles target findings := by
  cases target <;> rfl

/-! ## What there is to report -/

/-- The file that is scanned, with what its words are looked up in. -/
structure Context where
  file : String
  maxTiles : Nat
  constants : Constants

/-- The place of a token. -/
def Context.locate (context : Context) (token : Token) : Option Location :=
  some ⟨context.file, token.line⟩

/-- A keyword has no argument. -/
def missingArgument (context : Context) (keyword : Token) : Diagnostic :=
  let word := keyword.word
  ⟨.missingArgument, context.locate keyword, s!"`{word}` is missing an argument"⟩

/-- An argument stands for no number. -/
def unknownArgument (context : Context) (keyword argument : Token) : Diagnostic :=
  let name := argument.word
  let word := keyword.word
  ⟨.unresolvedName, context.locate argument, s!"name '{name}' is unknown ({word})"⟩

/-- A range has an end but no beginning. -/
def missingFirst (context : Context) (keyword : Token) : Diagnostic :=
  ⟨.missingArgument, context.locate keyword, "tile1 without a preceding tile0"⟩

/-- The tiles of a record do not lie in the tile space. -/
def recordOutOfRange (context : Context) (keyword : Token) (reason : RangeError) : Diagnostic :=
  let word := keyword.word
  let reason := reason.message
  ⟨.tileOutOfRange, context.locate keyword, s!"{word}: {reason}"⟩

/-! ## Arguments -/

/-- An argument that was read: its value if it has one, what was found on the way, and the tokens
left. -/
structure Argument where
  value : Option Int64
  findings : List (Finding Target)
  rest : List Token

/-- Whether a token can be an argument of a keyword. -/
def isArgument (keyword token : Token) : Bool :=
  token.line = keyword.line && token.word ≠ "\x7b" && token.word ≠ "\x7d"

/-- Reads the argument after a keyword. -/
def readArgument (context : Context) (keyword : Token) (tokens : List Token) : Argument :=
  let missing : Argument := ⟨none, [.problem (missingArgument context keyword)], tokens⟩
  match tokens with
  | [] => missing
  | token :: rest =>
    if isArgument keyword token then
      match context.constants.resolve? token.word with
      | some value => ⟨some value, [], rest⟩
      | none => ⟨none, [.problem (unknownArgument context keyword token)], rest⟩
    else missing

theorem readArgument_length (context : Context) (keyword : Token) (tokens : List Token) :
    (readArgument context keyword tokens).rest.length ≤ tokens.length := by
  cases tokens with
  | nil => exact Nat.le_refl _
  | cons token rest =>
    simp only [readArgument]
    split
    · split <;> exact Nat.le_succ _
    · exact Nat.le_refl _

/-- The tiles from `first` to `last` of a record. -/
def markTiles (context : Context) (target : Target) (keyword : Token) (first last : Int64) :
    Finding Target :=
  .ofRange target context.maxTiles (recordOutOfRange context keyword)
    (inclusiveRange first last context.maxTiles)

/-! ## Steps -/

/-- Where a scan stands. -/
structure State where
  /-- How many blocks are open. -/
  depth : Nat
  /-- A voxel record has begun and its block has not. -/
  pendingVoxel : Bool
  /-- The depth of the open voxel block. -/
  voxelDepth : Option Nat
  /-- The tile that the last `tile0` of the block has named and no `tile1` has used. -/
  tile0 : Option Int64
deriving DecidableEq, Repr

/-- The beginning of a file. -/
def State.initial : State := ⟨0, false, none, none⟩

/-- One step: where the scan stands after it, what it found, and the tokens left. -/
structure Step where
  state : State
  findings : List (Finding Target)
  rest : List Token

/-- What a word is to a scan at a place. Keywords count only at the depth they belong to. -/
inductive Keyword where
  | openBlock
  | closeBlock
  | tileFromTexture
  | animTileRange
  | voxel
  | tile
  | tile0
  | tile1
deriving DecidableEq, Repr

/-- The keyword that a word is where a scan stands. -/
def State.keyword? (state : State) (word : String) : Option Keyword :=
  match word with
  | "\x7b" => some .openBlock
  | "\x7d" => some .closeBlock
  | "tilefromtexture" => if state.depth = 0 then some .tileFromTexture else none
  | "animtilerange" => if state.depth = 0 then some .animTileRange else none
  | "voxel" => if state.depth = 0 then some .voxel else none
  | "tile" => if state.voxelDepth.isSome then some .tile else none
  | "tile0" => if state.voxelDepth.isSome then some .tile0 else none
  | "tile1" => if state.voxelDepth.isSome then some .tile1 else none
  | _ => none

/-- Opens a block. -/
def State.openBlock (state : State) : State :=
  { state with
    depth := state.depth + 1
    pendingVoxel := false
    voxelDepth := if state.pendingVoxel then some (state.depth + 1) else state.voxelDepth }

/-- Closes a block; outside all blocks there is nothing to close. -/
def State.closeBlock (state : State) : State :=
  if state.voxelDepth = some state.depth then
    { state with depth := state.depth - 1, voxelDepth := none, tile0 := none }
  else { state with depth := state.depth - 1 }

/-- Applies a token, taking its arguments from the tokens after it. -/
def step (context : Context) (state : State) (token : Token) (tokens : List Token) : Step :=
  match state.keyword? token.word with
  | none => ⟨state, [], tokens⟩
  | some .openBlock => ⟨state.openBlock, [], tokens⟩
  | some .closeBlock => ⟨state.closeBlock, [], tokens⟩
  | some .tileFromTexture =>
    let argument := readArgument context token tokens
    let marks := argument.value.toList.map fun tile =>
      markTiles context .nonempty token tile tile
    ⟨{ state with pendingVoxel := false }, argument.findings ++ marks, argument.rest⟩
  | some .animTileRange =>
    let first := readArgument context token tokens
    let last := readArgument context token first.rest
    let marks := match first.value, last.value with
      | some first, some last => [markTiles context .animation token first last]
      | _, _ => []
    ⟨{ state with pendingVoxel := false }, first.findings ++ last.findings ++ marks, last.rest⟩
  | some .voxel => ⟨{ state with pendingVoxel := true }, [], tokens⟩
  | some .tile =>
    let argument := readArgument context token tokens
    let marks := argument.value.toList.map fun tile => markTiles context .voxel token tile tile
    ⟨state, argument.findings ++ marks, argument.rest⟩
  | some .tile0 =>
    let argument := readArgument context token tokens
    ⟨{ state with tile0 := argument.value }, argument.findings, argument.rest⟩
  | some .tile1 =>
    let argument := readArgument context token tokens
    let marks := match state.tile0, argument.value with
      | some first, some last => [markTiles context .voxel token first last]
      | none, some _ => [.problem (missingFirst context token)]
      | _, none => []
    ⟨{ state with tile0 := none }, argument.findings ++ marks, argument.rest⟩

/-- A step takes tokens and gives none back. -/
theorem step_rest_length (context : Context) (state : State) (token : Token)
    (tokens : List Token) : (step context state token tokens).rest.length ≤ tokens.length := by
  simp only [step]
  split
  case h_5 =>
    exact Nat.le_trans (readArgument_length ..) (readArgument_length ..)
  all_goals
    dsimp only
    grind [readArgument_length]

/-! ## Scans -/

/-- What is found in tokens from a state on. `found` holds what was found so far, backwards. -/
def scanFrom (context : Context) (found : List (Finding Target)) (state : State)
    (tokens : List Token) : List (Finding Target) :=
  match tokens with
  | [] => found.reverse
  | token :: tokens =>
    let step := step context state token tokens
    scanFrom context (step.findings.reverse ++ found) step.state step.rest
termination_by tokens.length
decreasing_by exact Nat.lt_succ_of_le (step_rest_length ..)

/-- What is found in a definitions file. -/
def sourceFindings (maxTiles : Nat) (constants : Constants) (source : Source) :
    List (Finding Target) :=
  scanFrom ⟨source.path, maxTiles, constants⟩ [] State.initial (tokens source.text)

end TileCensus.Definition
