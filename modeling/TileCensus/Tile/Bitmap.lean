import TileCensus.Tile.Range

/-!
# Tile bitmaps

One flag for each tile number of a tile space. Flags are only ever set, and a range is marked
whole or not at all. What a bitmap holds is told by `isSet`: `isSet_fill` gives it after a change,
and `count`, `marked` and `bytes` are views of the same flags.
-/

namespace TileCensus.Tile

/-- A flag for each tile number below a size. -/
structure Bitmap where
  flags : Array Bool
deriving DecidableEq

namespace Bitmap

/-- No tile of the space is marked. -/
def blank (maxTiles : Nat) : Bitmap := ⟨Array.replicate maxTiles false⟩

/-- The number of tiles in the space. -/
def size (bitmap : Bitmap) : Nat := bitmap.flags.size

/-- Whether a tile is marked. Tiles outside the space are not. -/
def isSet (bitmap : Bitmap) (tile : Nat) : Bool := (bitmap.flags[tile]?).getD false

/-- Sets `count` flags from `start` on, as far as there are any. -/
def fillFrom (flags : Array Bool) (start : Nat) : Nat → Array Bool
  | 0 => flags
  | count + 1 => fillFrom (flags.setIfInBounds start true) (start + 1) count

/-- Marks the tiles of a range that are in the space. -/
def fill (bitmap : Bitmap) (range : Range) : Bitmap :=
  ⟨fillFrom bitmap.flags range.start.toInt.toNat
    (range.stop.toInt.toNat - range.start.toInt.toNat)⟩

/-- Marks a range that lies in the space, whole. -/
def setRange (bitmap : Bitmap) (range : Range) : Except RangeError Bitmap :=
  (range.within bitmap.size).map bitmap.fill

/-- Marks one tile. -/
def set (bitmap : Bitmap) (tile : Int64) : Except RangeError Bitmap :=
  (inclusiveRange tile tile bitmap.size).bind bitmap.setRange

/-! ## Views -/

/-- The number of marked tiles. -/
def count (bitmap : Bitmap) : Nat := bitmap.flags.countP id

/-- The marked tiles in ascending order. -/
def marked (bitmap : Bitmap) : List Nat := (List.range bitmap.size).filter bitmap.isSet

/-- One byte for each tile, zero or one. -/
def bytes (bitmap : Bitmap) : List UInt8 :=
  bitmap.flags.toList.map fun flag => if flag then 1 else 0

/-! ## Flags after a change -/

theorem size_fillFrom (flags : Array Bool) (start count : Nat) :
    (fillFrom flags start count).size = flags.size := by
  induction count generalizing flags start with
  | zero => rfl
  | succ count ih => rw [fillFrom, ih, Array.size_setIfInBounds]

theorem getElem?_fillFrom (flags : Array Bool) (start count tile : Nat) :
    (fillFrom flags start count)[tile]? =
      if start ≤ tile ∧ tile < start + count ∧ tile < flags.size then some true
      else flags[tile]? := by
  induction count generalizing flags start with
  | zero =>
    rw [fillFrom, if_neg (by omega)]
  | succ count ih =>
    rw [fillFrom, ih, Array.size_setIfInBounds, Array.getElem?_setIfInBounds]
    grind

@[simp]
theorem size_fill (bitmap : Bitmap) (range : Range) : (bitmap.fill range).size = bitmap.size :=
  size_fillFrom ..

theorem size_blank (maxTiles : Nat) : (blank maxTiles).size = maxTiles := Array.size_replicate

@[simp]
theorem isSet_blank (maxTiles tile : Nat) : (blank maxTiles).isSet tile = false := by
  simp only [isSet, blank, Array.getElem?_replicate]
  split <;> rfl

end Bitmap
end TileCensus.Tile
