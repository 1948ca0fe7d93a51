import TileCensus.Tile.Number

/-!
# Tile ranges

A range of tile numbers is half-open and may be anything that two tile numbers can say; `within`
tells whether it lies in a tile space. The frames of an action and the tiles of an inclusive
record are turned into ranges without wrapping.
-/

namespace TileCensus.Tile

/-! ## Ranges -/

/-- The tiles from `start` up to but without `stop`. -/
structure Range where
  start : Int64
  stop : Int64
deriving DecidableEq, Repr

/-- A tile is in a range. -/
def Range.Contains (range : Range) (tile : Nat) : Prop :=
  range.start.toInt ≤ tile ∧ (tile : Int) < range.stop.toInt

/-- Why tiles cannot be marked. -/
inductive RangeError where
  | outOfRange (start stop : Int64) (maxTiles : Nat)
  | negativeLength (start stop : Int64)
  | overflow (tile startFrame frameCount viewType : Int64)
deriving DecidableEq, Repr

/-- The reason in words. -/
def RangeError.message : RangeError → String
  | outOfRange start stop maxTiles =>
    let first := start.toInt
    let last := stop.toInt
    s!"tile range {first}..{last} lies outside 0..{maxTiles}"
  | negativeLength start stop =>
    let first := start.toInt
    let last := stop.toInt
    s!"tile range {first}..{last} has negative length"
  | overflow tile startFrame frameCount viewType =>
    let tile := tile.toInt
    let start := startFrame.toInt
    let count := frameCount.toInt
    let view := viewType.toInt
    s!"frames {count} x {view} from tile {tile} + {start} do not fit in 64 bits"

/-- A range that lies in a tile space of a size. -/
def Range.within (range : Range) (maxTiles : Nat) : Except RangeError Range :=
  if range.stop.toInt < range.start.toInt then .error (.negativeLength range.start range.stop)
  else if range.start.toInt < 0 ∨ (maxTiles : Int) < range.stop.toInt then
    .error (.outOfRange range.start range.stop maxTiles)
  else .ok range

theorem Range.within_eq_ok_iff {range other : Range} {maxTiles : Nat} :
    range.within maxTiles = .ok other ↔
      range = other ∧ 0 ≤ range.start.toInt ∧ range.start.toInt ≤ range.stop.toInt ∧
        range.stop.toInt ≤ maxTiles := by
  simp only [within]
  grind

/-! ## Where ranges come from -/

/-- The frames of an action: as many tiles as its frame count times its view type, from the tile
and its start frame on. -/
def frameRange (tile startFrame frameCount viewType : Int64) : Except RangeError Range :=
  let range? := do
    let start ← add? tile startFrame
    let length ← mul? frameCount viewType
    return Range.mk start (← add? start length)
  match range? with
  | some range => .ok range
  | none => .error (.overflow tile startFrame frameCount viewType)

/-- The tiles from `first` to `last`, both included, in a tile space of a size. -/
def inclusiveRange (first last : Int64) (maxTiles : Nat) : Except RangeError Range :=
  match add? last 1 with
  | some stop => .ok ⟨first, stop⟩
  | none => .error (.outOfRange first last maxTiles)

end TileCensus.Tile
