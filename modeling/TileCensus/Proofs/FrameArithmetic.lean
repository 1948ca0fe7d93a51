import TileCensus.Proofs.TileSpace

/-!
# Frame arithmetic

Where the frames of an action lie is said by four tile numbers, and the ends of the frames are a sum
and a product of them over the integers. On the way to a range three integers have to fit into 64
bits: the first frame, the number of frames, and the number after the last one. The range has these
ends whenever it is made, and it is made exactly if all three fit (`exists_frameRange_iff`).

The number of frames is not among what a range is told by, so frames can be refused although both
their ends fit. That takes a number of frames that no tile space has room for. So marking the range
succeeds exactly if the frames lie in the space over the integers (`frameRange_bind_setRange`).
-/

namespace TileCensus

open Tile

/-! ## Frames over the integers -/

/-- The numbers that say where the frames of an action lie: the tile of an actor and the operands
of the action. -/
structure FrameNumbers where
  tile : Int64
  startFrame : Int64
  frameCount : Int64
  viewType : Int64

namespace FrameNumbers

/-- The first frame. -/
def first (numbers : FrameNumbers) : Int := numbers.tile.toInt + numbers.startFrame.toInt

/-- The number after the last frame. -/
def stop (numbers : FrameNumbers) : Int :=
  numbers.first + numbers.frameCount.toInt * numbers.viewType.toInt

/-- The range of the frames, when it lies in a tile space of a size. -/
def range? (numbers : FrameNumbers) (maxTiles : Nat) : Except RangeError Tile.Range :=
  (frameRange numbers.tile numbers.startFrame numbers.frameCount numbers.viewType).bind
    (·.within maxTiles)

variable {numbers : FrameNumbers} {maxTiles : Nat} {range : Tile.Range}

theorem range?_eq_ok_iff :
    numbers.range? maxTiles = .ok range ↔
      range.start.toInt = numbers.first ∧ range.stop.toInt = numbers.stop ∧
        0 ≤ numbers.first ∧ numbers.first ≤ numbers.stop ∧ numbers.stop ≤ maxTiles := by
  rw [range?, frameRange_within_eq_ok_iff]
  constructor
  · rintro ⟨start, stop, fits⟩
    rw [start, stop] at fits
    exact ⟨start, stop, fits⟩
  · rintro ⟨start, stop, fits⟩
    rw [start, stop]
    exact ⟨rfl, rfl, fits⟩

/-- Frames that lie in a tile space over the integers have a range there. -/
theorem exists_range?_iff (small : maxTiles < 2 ^ 63) :
    (∃ range, numbers.range? maxTiles = .ok range) ↔
      0 ≤ numbers.first ∧ numbers.first ≤ numbers.stop ∧ numbers.stop ≤ maxTiles := by
  simp only [range?_eq_ok_iff]
  constructor
  · rintro ⟨range, -, -, inside⟩
    exact inside
  · rintro ⟨nonneg, ordered, last⟩
    obtain ⟨start, start_eq⟩ : ∃ v : Int64, v.toInt = numbers.first :=
      exists_toInt_eq (by omega) (by omega)
    obtain ⟨stop, stop_eq⟩ : ∃ v : Int64, v.toInt = numbers.stop :=
      exists_toInt_eq (by omega) (by omega)
    exact ⟨⟨start, stop⟩, start_eq, stop_eq, nonneg, ordered, last⟩

end FrameNumbers

/-! ## Frames that do not fit into 64 bits -/

namespace Tile

variable {tile startFrame frameCount viewType : Int64} {range : Range}

theorem frameRange_eq_overflow_of_error {reason : RangeError}
    (refused : frameRange tile startFrame frameCount viewType = .error reason) :
    reason = .overflow tile startFrame frameCount viewType := by
  dsimp only [frameRange] at refused
  split at refused
  next => cases refused
  next =>
    cases refused
    rfl

theorem exists_frameRange_iff :
    (∃ range, frameRange tile startFrame frameCount viewType = .ok range) ↔
      Fits (tile.toInt + startFrame.toInt) ∧ Fits (frameCount.toInt * viewType.toInt) ∧
        Fits (tile.toInt + startFrame.toInt + frameCount.toInt * viewType.toInt) := by
  simp only [frameRange_eq_ok_iff, fits_iff_exists_toInt_eq]
  constructor
  · rintro ⟨range, start, length, stop⟩
    exact ⟨⟨range.start, start⟩, length, ⟨range.stop, stop⟩⟩
  · rintro ⟨⟨start, start_eq⟩, length, ⟨stop, stop_eq⟩⟩
    exact ⟨⟨start, stop⟩, start_eq, length, stop_eq⟩

/-- Frames are refused for one reason, and only if one of the three integers does not fit. -/
theorem frameRange_eq_error_iff :
    frameRange tile startFrame frameCount viewType =
        .error (.overflow tile startFrame frameCount viewType) ↔
      ¬(Fits (tile.toInt + startFrame.toInt) ∧ Fits (frameCount.toInt * viewType.toInt) ∧
        Fits (tile.toInt + startFrame.toInt + frameCount.toInt * viewType.toInt)) := by
  rw [← exists_frameRange_iff]
  cases made : frameRange tile startFrame frameCount viewType with
  | ok range => simp
  | error reason =>
    obtain rfl := frameRange_eq_overflow_of_error made
    simp

/-! ## Frames that are marked -/

theorem bind_setRange_eq_ok_iff {bitmap marked : Bitmap} {range? : Except RangeError Range} :
    range?.bind bitmap.setRange = .ok marked ↔
      ∃ range, range?.bind (·.within bitmap.size) = .ok range ∧ bitmap.fill range = marked := by
  rw [Bitmap.bind_setRange]
  cases range?.bind (·.within bitmap.size) with
  | error reason => simp [Except.map]
  | ok range => simp [Except.map]

/-- Making a range of frames and marking it in a bitmap succeeds exactly if the frames lie in the
space over the integers, and marks them and nothing else. No range is made if the first frame or the
number after the last one does not fit into 64 bits, and a range that is made has these as its ends.
There is one reason not to make one. -/
theorem frameRange_bind_setRange {bitmap : Bitmap} (small : bitmap.size < 2 ^ 63)
    (tile startFrame frameCount viewType : Int64) :
    let first : Int := tile.toInt + startFrame.toInt
    let stop : Int := first + frameCount.toInt * viewType.toInt
    let range? := frameRange tile startFrame frameCount viewType
    ((∃ marked, range?.bind bitmap.setRange = .ok marked) ↔
      0 ≤ first ∧ first ≤ stop ∧ stop ≤ bitmap.size) ∧
    (∀ marked, range?.bind bitmap.setRange = .ok marked →
      marked.size = bitmap.size ∧ ∀ other : Nat, marked.isSet other = true ↔
        bitmap.isSet other = true ∨ first ≤ other ∧ (other : Int) < stop) ∧
    (¬Fits first ∨ ¬Fits stop →
      range? = .error (.overflow tile startFrame frameCount viewType)) ∧
    (∀ range, range? = .ok range → range.start.toInt = first ∧ range.stop.toInt = stop) ∧
    ∀ reason, range? = .error reason → reason = .overflow tile startFrame frameCount viewType := by
  intro first stop range?
  let numbers : FrameNumbers := ⟨tile, startFrame, frameCount, viewType⟩
  have placed_iff : (∃ range, numbers.range? bitmap.size = .ok range) ↔
      0 ≤ first ∧ first ≤ stop ∧ stop ≤ bitmap.size := FrameNumbers.exists_range?_iff small
  refine ⟨?_, ?_, ?_, ?_, ?_⟩
  · rw [← placed_iff]
    constructor
    · rintro ⟨marked, made⟩
      obtain ⟨range, placed, -⟩ := bind_setRange_eq_ok_iff.mp made
      exact ⟨range, placed⟩
    · rintro ⟨range, placed⟩
      exact ⟨_, bind_setRange_eq_ok_iff.mpr ⟨range, placed, rfl⟩⟩
  · intro marked made
    obtain ⟨range, placed, rfl⟩ := bind_setRange_eq_ok_iff.mp made
    obtain ⟨start_eq, stop_eq, -, -, last⟩ := frameRange_within_eq_ok_iff.mp placed
    refine ⟨Bitmap.size_fill bitmap range, fun other => ?_⟩
    rw [Bitmap.isSet_fill, Range.Contains, start_eq, stop_eq]
    refine or_congr_right (and_iff_left_of_imp ?_)
    rintro ⟨-, high⟩
    omega
  · intro wide
    refine frameRange_eq_error_iff.mpr ?_
    rintro ⟨first_fits, -, stop_fits⟩
    exact wide.elim (absurd first_fits) (absurd stop_fits)
  · intro range made
    obtain ⟨start_eq, -, stop_eq⟩ := frameRange_eq_ok_iff.mp made
    exact ⟨start_eq, stop_eq⟩
  · intro reason refused
    exact frameRange_eq_overflow_of_error refused

/-- Ten frames from five tiles before tile 20 are marked in a space of 64. Frames that would begin
past the last 64-bit number are not. -/
theorem frameRange_bind_setRange_backwards :
    (Bitmap.blank 64).size < 2 ^ 63 ∧
      (∃ marked, (frameRange 20 (-5) 2 5).bind (Bitmap.blank 64).setRange = .ok marked ∧
        ∀ tile : Nat, marked.isSet tile = true ↔ 15 ≤ tile ∧ tile < 25) ∧
      frameRange 10 9223372036854775802 4 2 = .error (.overflow 10 9223372036854775802 4 2) := by
  have small : (Bitmap.blank 64).size < 2 ^ 63 := by decide
  obtain ⟨succeeds, marks, -⟩ := frameRange_bind_setRange small 20 (-5) 2 5
  obtain ⟨-, -, overflows, -⟩ := frameRange_bind_setRange small 10 9223372036854775802 4 2
  obtain ⟨marked, made⟩ := succeeds.mpr (by decide)
  refine ⟨small, ⟨marked, made, fun tile => ?_⟩, overflows (.inl (by decide))⟩
  have ends : (20 : Int64).toInt + (-5 : Int64).toInt = 15 := by decide
  have length : (2 : Int64).toInt * (5 : Int64).toInt = 10 := by decide
  rw [(marks marked made).2, Bitmap.isSet_blank, ends, length]
  simp only [Bool.false_eq_true, false_or]
  omega

end Tile
end TileCensus
