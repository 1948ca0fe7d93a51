import Mathlib
import TileCensus.Finding

/-!
# Ranges, bitmaps and findings over the integers

Tile numbers are 64-bit words, but what may be marked is said over the integers: the frames of an
action are placed exactly when they lie in the tile space (`frameRange_within_eq_ok_iff`). On the
way there a sum or a product can overflow only if the range would not have lain in the space.

The other laws say what marking does. Filling adds the tiles of a range and changes nothing else
(`Bitmap.isSet_fill`), so a bitmap holds what it held before and the tiles of the marks among the
findings (`Finding.isSet_markIn`), whatever their order and whatever else was found.
-/

namespace TileCensus

/-! ## Ranges -/

namespace Tile

theorem add?_eq_some_iff {a b c : Int64} : add? a b = some c ↔ c.toInt = a.toInt + b.toInt :=
  fit?_eq_some_iff

theorem mul?_eq_some_iff {a b c : Int64} : mul? a b = some c ↔ c.toInt = a.toInt * b.toInt :=
  fit?_eq_some_iff

theorem exists_toInt_eq {n : Int} (low : -0x8000000000000000 ≤ n)
    (high : n < 0x8000000000000000) : ∃ v : Int64, v.toInt = n :=
  ⟨Int64.ofInt n, Int64.toInt_ofInt_of_le (by omega) (by omega)⟩

/-- An integer fits into 64 bits. -/
def Fits (n : Int) : Prop := -0x8000000000000000 ≤ n ∧ n < 0x8000000000000000

instance (n : Int) : Decidable (Fits n) := inferInstanceAs (Decidable (_ ∧ _))

theorem fits_iff_exists_toInt_eq {n : Int} : Fits n ↔ ∃ v : Int64, v.toInt = n := by
  constructor
  · rintro ⟨low, high⟩
    exact exists_toInt_eq low high
  · rintro ⟨v, rfl⟩
    exact ⟨v.minValue_le_toInt, v.toInt_lt⟩

variable {tile startFrame frameCount viewType : Int64} {range : Range} {maxTiles : Nat}

theorem frameRange_eq_ok_iff_exists :
    frameRange tile startFrame frameCount viewType = .ok range ↔
      ∃ length, add? tile startFrame = some range.start ∧
        mul? frameCount viewType = some length ∧ add? range.start length = some range.stop := by
  obtain ⟨start, stop⟩ := range
  rw [frameRange]
  cases add? tile startFrame with
  | none => simp
  | some first =>
    cases mul? frameCount viewType with
    | none => simp
    | some length =>
      cases sum : add? first length with
      | none =>
        simp only [Option.bind_eq_bind, Option.bind_some, Option.pure_def, sum]
        grind
      | some last =>
        simp only [Option.bind_eq_bind, Option.bind_some, Option.pure_def, sum]
        grind

/-- Frames make a range when their number and both ends fit; the ends are those over the
integers. -/
theorem frameRange_eq_ok_iff :
    frameRange tile startFrame frameCount viewType = .ok range ↔
      range.start.toInt = tile.toInt + startFrame.toInt ∧
        (∃ length : Int64, length.toInt = frameCount.toInt * viewType.toInt) ∧
        range.stop.toInt =
          tile.toInt + startFrame.toInt + frameCount.toInt * viewType.toInt := by
  rw [frameRange_eq_ok_iff_exists]
  simp only [add?_eq_some_iff, mul?_eq_some_iff]
  constructor
  · rintro ⟨length, start, product, stop⟩
    exact ⟨start, ⟨length, product⟩, by rw [stop, start, product]⟩
  · rintro ⟨start, ⟨length, product⟩, stop⟩
    exact ⟨length, start, product, by rw [stop, start, product]⟩

theorem bind_within_eq_ok_iff {range? : Except RangeError Range} :
    range?.bind (·.within maxTiles) = .ok range ↔
      range? = .ok range ∧ range.within maxTiles = .ok range := by
  cases range? with
  | error reason => simp [Except.bind]
  | ok found =>
    simp only [Except.bind, Except.ok.injEq]
    constructor
    · intro fits
      obtain ⟨rfl, -⟩ := Range.within_eq_ok_iff.mp fits
      exact ⟨rfl, fits⟩
    · rintro ⟨rfl, fits⟩
      exact fits

/-- Frames are placed exactly when they lie in the tile space over the integers. -/
theorem frameRange_within_eq_ok_iff :
    (frameRange tile startFrame frameCount viewType).bind (·.within maxTiles) = .ok range ↔
      range.start.toInt = tile.toInt + startFrame.toInt ∧
        range.stop.toInt =
          tile.toInt + startFrame.toInt + frameCount.toInt * viewType.toInt ∧
        0 ≤ range.start.toInt ∧ range.start.toInt ≤ range.stop.toInt ∧
        range.stop.toInt ≤ maxTiles := by
  rw [bind_within_eq_ok_iff, frameRange_eq_ok_iff, Range.within_eq_ok_iff]
  constructor
  · rintro ⟨⟨start, -, stop⟩, -, fits⟩
    exact ⟨start, stop, fits⟩
  · rintro ⟨start, stop, fits⟩
    -- the number of frames is at most the number after the last one, so it fits as well
    have high := range.stop.toInt_lt
    refine ⟨⟨start, exists_toInt_eq ?_ ?_, stop⟩, rfl, fits⟩ <;> omega

/-- An inclusive record is placed exactly when it lies in the tile space over the integers. A record
that ends just before it begins has no tiles, and is placed as well. -/
theorem inclusiveRange_within_eq_ok_iff {first last : Int64} :
    (inclusiveRange first last maxTiles).bind (·.within maxTiles) = .ok range ↔
      range.start = first ∧ range.stop.toInt = last.toInt + 1 ∧
        0 ≤ first.toInt ∧ first.toInt ≤ last.toInt + 1 ∧ last.toInt < maxTiles := by
  rw [bind_within_eq_ok_iff, Range.within_eq_ok_iff]
  cases sum : add? last 1 with
  | none =>
    simp only [inclusiveRange, sum, reduceCtorEq, false_and, false_iff]
    rintro ⟨-, stop, -⟩
    rw [add?_eq_some_iff.mpr stop] at sum
    cases sum
  | some stop =>
    have exact : stop.toInt = last.toInt + 1 := add?_eq_some_iff.mp sum
    obtain ⟨start, other⟩ := range
    simp only [inclusiveRange, sum, Except.ok.injEq, Range.mk.injEq, true_and]
    constructor
    · rintro ⟨⟨rfl, rfl⟩, fits⟩
      exact ⟨rfl, exact, by omega⟩
    · rintro ⟨rfl, stop_eq, fits⟩
      obtain rfl : stop = other := Int64.toInt_inj.mp (by omega)
      exact ⟨⟨rfl, rfl⟩, by omega⟩

theorem exists_inclusiveRange_within_iff {first last : Int64} (small : maxTiles < 2 ^ 63) :
    (∃ range, (inclusiveRange first last maxTiles).bind (·.within maxTiles) = .ok range) ↔
      0 ≤ first.toInt ∧ first.toInt ≤ last.toInt + 1 ∧ last.toInt < maxTiles := by
  simp only [inclusiveRange_within_eq_ok_iff]
  constructor
  · rintro ⟨range, -, -, fits⟩
    exact fits
  · intro fits
    obtain ⟨stop, exact⟩ : ∃ v : Int64, v.toInt = last.toInt + 1 :=
      exists_toInt_eq (by omega) (by omega)
    exact ⟨⟨first, stop⟩, rfl, exact, fits⟩

/-- Why an inclusive record that does not lie in a tile space is not placed. -/
def inclusiveError (first last : Int64) (maxTiles : Nat) : RangeError :=
  match add? last 1 with
  | none => .outOfRange first last maxTiles
  | some stop =>
    if stop.toInt < first.toInt then .negativeLength first stop
    else .outOfRange first stop maxTiles

theorem inclusiveRange_within_eq_error {first last : Int64}
    (outside : ¬(0 ≤ first.toInt ∧ first.toInt ≤ last.toInt + 1 ∧ last.toInt < maxTiles)) :
    (inclusiveRange first last maxTiles).bind (·.within maxTiles) =
      .error (inclusiveError first last maxTiles) := by
  cases sum : add? last 1 with
  | none => simp only [inclusiveRange, inclusiveError, sum, Except.bind]
  | some stop =>
    have exact : stop.toInt = last.toInt + 1 := add?_eq_some_iff.mp sum
    simp only [inclusiveRange, inclusiveError, sum, Except.bind, Range.within]
    split
    next => rfl
    next => rw [if_pos (by omega)]

/-- A single tile is reported with the range it would have made. -/
theorem inclusiveError_self (tile : Int64) (maxTiles : Nat) :
    inclusiveError tile tile maxTiles = .outOfRange tile ((add? tile 1).getD tile) maxTiles := by
  cases sum : add? tile 1 with
  | none => simp only [inclusiveError, sum, Option.getD_none]
  | some stop =>
    have exact : stop.toInt = tile.toInt + 1 := add?_eq_some_iff.mp sum
    simp only [inclusiveError, sum, Option.getD_some]
    rw [if_neg (by omega)]

/-! ## Bitmaps -/

namespace Bitmap

/-- Marking a range, if there is one, is filling it once it is known to lie in the space. -/
theorem bind_setRange (bitmap : Bitmap) (range? : Except RangeError Range) :
    range?.bind bitmap.setRange = (range?.bind (·.within bitmap.size)).map bitmap.fill := by
  cases range? with
  | error reason => rfl
  | ok range => rfl

/-- Filling a range marks its tiles and leaves all others as they are. -/
theorem isSet_fill {bitmap : Bitmap} {tile : Nat} :
    (bitmap.fill range).isSet tile = true ↔
      bitmap.isSet tile = true ∨ range.Contains tile ∧ tile < bitmap.size := by
  rw [isSet, fill, getElem?_fillFrom, isSet, Range.Contains, size]
  split
  next inside =>
    refine iff_of_true rfl (.inr ?_)
    omega
  next outside =>
    refine ⟨.inl, fun marked => marked.resolve_right ?_⟩
    omega

/-- A bitmap is its size and the tiles that are marked in it. -/
theorem ext_isSet {a b : Bitmap} (size : a.size = b.size)
    (isSet : ∀ tile, a.isSet tile = true ↔ b.isSet tile = true) : a = b := by
  obtain ⟨flags⟩ := a
  obtain ⟨others⟩ := b
  congr 1
  refine Array.ext size fun tile inside inside' => ?_
  have same := isSet tile
  simp only [Bitmap.isSet, Array.getElem?_eq_getElem inside, Array.getElem?_eq_getElem inside',
    Option.getD_some] at same
  exact Bool.eq_iff_iff.mpr same

theorem size_foldl_fill (bitmap : Bitmap) (ranges : List Range) :
    (ranges.foldl fill bitmap).size = bitmap.size := by
  induction ranges generalizing bitmap with
  | nil => rfl
  | cons range ranges ih => rw [List.foldl_cons, ih, size_fill]

theorem isSet_foldl_fill {bitmap : Bitmap} {ranges : List Range} {tile : Nat} :
    (ranges.foldl fill bitmap).isSet tile = true ↔
      bitmap.isSet tile = true ∨ ∃ range ∈ ranges, range.Contains tile ∧ tile < bitmap.size := by
  induction ranges generalizing bitmap with
  | nil => simp
  | cons range ranges ih =>
    rw [List.foldl_cons, ih, isSet_fill, size_fill, or_assoc]
    simp

/-! ### Views -/

theorem isSet_of_size_le {bitmap : Bitmap} {tile : Nat} (outside : bitmap.size ≤ tile) :
    bitmap.isSet tile = false := by
  simp [isSet, Array.getElem?_eq_none outside]

theorem toList_flags (bitmap : Bitmap) :
    bitmap.flags.toList = (List.range bitmap.size).map bitmap.isSet := by
  refine List.ext_getElem (by simp [size]) fun tile inside _ => ?_
  have listed : tile < bitmap.flags.size := by simpa using inside
  simp [isSet, listed]

theorem bytes_eq (bitmap : Bitmap) :
    bitmap.bytes = (List.range bitmap.size).map fun tile => if bitmap.isSet tile then 1 else 0 := by
  rw [bytes, toList_flags, List.map_map]
  rfl

theorem mem_marked_iff {bitmap : Bitmap} {tile : Nat} :
    tile ∈ bitmap.marked ↔ bitmap.isSet tile = true := by
  rw [marked, List.mem_filter, List.mem_range]
  refine and_iff_right_of_imp fun marked => ?_
  by_contra outside
  rw [isSet_of_size_le (Nat.le_of_not_lt outside)] at marked
  cases marked

theorem marked_ascending (bitmap : Bitmap) : bitmap.marked.Pairwise (· < ·) :=
  List.pairwise_lt_range.filter _

theorem length_marked (bitmap : Bitmap) : bitmap.marked.length = bitmap.count := by
  rw [marked, count, ← Array.countP_toList, toList_flags, List.countP_map,
    List.countP_eq_length_filter]
  rfl

end Bitmap
end Tile

/-! ## Findings -/

namespace Finding

open Tile

variable {κ : Type} {target : κ} {findings : List (Finding κ)} {range : Tile.Range}

theorem ofRange_eq_mark_iff {maxTiles : Nat} {report : RangeError → Diagnostic}
    {range? : Except RangeError Tile.Range} :
    ofRange target maxTiles report range? = mark target range ↔
      range?.bind (·.within maxTiles) = .ok range := by
  rw [ofRange]
  split
  next found => simp [found]
  next found => simp [found]

variable [DecidableEq κ]

theorem mem_ranges_iff : range ∈ ranges target findings ↔ mark target range ∈ findings := by
  rw [ranges, List.mem_filterMap]
  constructor
  · rintro ⟨finding, mem, found⟩
    cases finding with
    | problem => cases found
    | mark other candidate =>
      obtain ⟨rfl, rfl⟩ : other = target ∧ candidate = range := by simpa using found
      exact mem
  · intro mem
    exact ⟨mark target range, mem, if_pos rfl⟩

theorem size_markIn (bitmap : Bitmap) : (markIn bitmap target findings).size = bitmap.size :=
  Bitmap.size_foldl_fill ..

/-- A bitmap keeps its tiles and gains those of the marks that are found for it. -/
theorem isSet_markIn {bitmap : Bitmap} {tile : Nat} :
    (markIn bitmap target findings).isSet tile = true ↔
      bitmap.isSet tile = true ∨
        ∃ range, mark target range ∈ findings ∧ range.Contains tile ∧ tile < bitmap.size := by
  rw [markIn, Bitmap.isSet_foldl_fill]
  simp only [mem_ranges_iff]

theorem size_bitmap (maxTiles : Nat) : (bitmap maxTiles target findings).size = maxTiles :=
  (size_markIn _).trans (Bitmap.size_blank maxTiles)

theorem isSet_bitmap {maxTiles tile : Nat} :
    (bitmap maxTiles target findings).isSet tile = true ↔
      ∃ range, mark target range ∈ findings ∧ range.Contains tile ∧ tile < maxTiles := by
  simp [bitmap, isSet_markIn, Bitmap.size_blank]

end Finding
end TileCensus
