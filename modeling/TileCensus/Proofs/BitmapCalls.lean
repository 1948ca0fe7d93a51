import TileCensus.Proofs.TileSpace

/-!
# Bitmaps under calls

A bitmap is changed by calls that ask for one tile or for a range of them. A call is accepted when
all tiles that it asks for lie in the space, and then they are all marked; otherwise nothing is.
Which calls are accepted depends on the size of the space alone (`accepts_iff_fits`), and marks add
up, so what a run of calls leaves is the union of what its accepted calls ask for, in whatever order
they come (`run_exact`).

The ways to look at a bitmap are all ways to look at one set of tiles (`shows_tiles`).
-/

namespace TileCensus.Tile.Bitmap

/-! ## Calls -/

/-- A request to mark tiles. -/
inductive Call where
  | set (tile : Int64)
  | setRange (range : Range)

namespace Call

/-- What a bitmap answers: the bitmap with the tiles marked, or why none is. -/
def answer (bitmap : Bitmap) : Call → Except RangeError Bitmap
  | set tile => bitmap.set tile
  | setRange range => bitmap.setRange range

/-- All tiles that a call asks for lie in a space of a size. -/
def Fits (maxTiles : Nat) : Call → Prop
  | set tile => 0 ≤ tile.toInt ∧ tile.toInt < maxTiles
  | setRange range =>
    0 ≤ range.start.toInt ∧ range.start.toInt ≤ range.stop.toInt ∧ range.stop.toInt ≤ maxTiles

/-- A tile is among those that a call asks for. -/
def Covers (tile : Nat) : Call → Prop
  | set other => other.toInt = tile
  | setRange range => range.Contains tile

end Call

/-- A bitmap accepts a call. -/
def Accepts (bitmap : Bitmap) (call : Call) : Prop :=
  ∃ marked, call.answer bitmap = .ok marked

/-- The bitmap that a call leaves; a call that is rejected leaves it as it was. -/
def after (bitmap : Bitmap) (call : Call) : Bitmap :=
  match call.answer bitmap with
  | .ok marked => marked
  | .error _ => bitmap

/-- The bitmap that a run of calls leaves. -/
def run (bitmap : Bitmap) (calls : List Call) : Bitmap := calls.foldl after bitmap

/-! ## One call -/

section Call

variable {bitmap : Bitmap} {call : Call} {maxTiles : Nat}

/-- The range that a call marks in a space of a size. -/
def Call.range? (maxTiles : Nat) : Call → Except RangeError Range
  | set tile => (inclusiveRange tile tile maxTiles).bind (·.within maxTiles)
  | setRange range => range.within maxTiles

theorem Call.answer_eq (bitmap : Bitmap) (call : Call) :
    call.answer bitmap = (call.range? bitmap.size).map bitmap.fill := by
  cases call with
  | setRange range => rfl
  | set tile =>
    show (inclusiveRange tile tile bitmap.size).bind bitmap.setRange = _
    rw [bind_setRange, Call.range?]

theorem Call.exists_range?_iff (small : maxTiles < 2 ^ 63) :
    (∃ range, call.range? maxTiles = .ok range) ↔ call.Fits maxTiles := by
  cases call with
  | set tile =>
    rw [Call.range?, Call.Fits, exists_inclusiveRange_within_iff small]
    omega
  | setRange range =>
    simp only [Call.range?, Call.Fits, Range.within_eq_ok_iff]
    constructor
    · rintro ⟨_, -, fits⟩
      exact fits
    · intro fits
      exact ⟨range, rfl, fits⟩

theorem Call.contains_iff_covers {range : Range} (found : call.range? maxTiles = .ok range)
    (tile : Nat) : range.Contains tile ∧ tile < maxTiles ↔ call.Covers tile := by
  cases call with
  | set other =>
    obtain ⟨start, stop, low, -, high⟩ := inclusiveRange_within_eq_ok_iff.mp found
    rw [Call.Covers, Range.Contains, start]
    omega
  | setRange other =>
    obtain ⟨rfl, low, -, high⟩ := Range.within_eq_ok_iff.mp found
    rw [Call.Covers]
    apply and_iff_left_of_imp
    intro inside
    have below : (tile : Int) < other.stop.toInt := inside.2
    omega

theorem accepts_iff_fits (small : bitmap.size < 2 ^ 63) :
    bitmap.Accepts call ↔ call.Fits bitmap.size := by
  rw [← Call.exists_range?_iff small, Accepts, Call.answer_eq]
  cases call.range? bitmap.size with
  | error reason => simp [Except.map]
  | ok range => simp [Except.map]

theorem after_of_not_accepts (rejected : ¬bitmap.Accepts call) : bitmap.after call = bitmap := by
  rw [after]
  split
  next marked found => exact absurd ⟨marked, found⟩ rejected
  next => rfl

@[simp]
theorem size_after (bitmap : Bitmap) (call : Call) : (bitmap.after call).size = bitmap.size := by
  rw [after, Call.answer_eq]
  cases call.range? bitmap.size with
  | error reason => rfl
  | ok range => exact size_fill bitmap range

/-- A call adds the tiles that it asks for if it fits, and nothing otherwise. -/
theorem isSet_after (small : bitmap.size < 2 ^ 63) {tile : Nat} :
    (bitmap.after call).isSet tile = true ↔
      bitmap.isSet tile = true ∨ call.Fits bitmap.size ∧ call.Covers tile := by
  rw [← Call.exists_range?_iff small, after, Call.answer_eq]
  cases found : call.range? bitmap.size with
  | error reason => simp [Except.map]
  | ok range =>
    show (bitmap.fill range).isSet tile = true ↔ _
    rw [isSet_fill, Call.contains_iff_covers found tile]
    simp

end Call

/-! ## Runs of calls -/

section Run

variable {bitmap : Bitmap} {calls : List Call}

@[simp]
theorem size_run (bitmap : Bitmap) (calls : List Call) : (bitmap.run calls).size = bitmap.size := by
  induction calls generalizing bitmap with
  | nil => rfl
  | cons call calls ih =>
    show ((bitmap.after call).run calls).size = bitmap.size
    rw [ih, size_after]

theorem isSet_run (small : bitmap.size < 2 ^ 63) {tile : Nat} :
    (bitmap.run calls).isSet tile = true ↔
      bitmap.isSet tile = true ∨ ∃ call ∈ calls, call.Fits bitmap.size ∧ call.Covers tile := by
  induction calls generalizing bitmap with
  | nil => simp [run]
  | cons call calls ih =>
    show ((bitmap.after call).run calls).isSet tile = true ↔ _
    rw [ih (by rwa [size_after]), isSet_after small, size_after, or_assoc]
    simp

/-- Calls leave the same in any order. -/
theorem run_perm (small : bitmap.size < 2 ^ 63) {others : List Call} (perm : others.Perm calls) :
    bitmap.run others = bitmap.run calls := by
  apply ext_isSet
  · rw [size_run, size_run]
  · intro tile
    rw [isSet_run small, isSet_run small]
    simp only [perm.mem_iff]

end Run

/-! ## Runs from a blank bitmap -/

section Blank

variable {maxTiles : Nat} {calls : List Call} {call : Call} {tile : Nat}

theorem size_run_blank (maxTiles : Nat) (calls : List Call) :
    ((blank maxTiles).run calls).size = maxTiles := by
  rw [size_run, size_blank]

/-- What was called before is of no account to whether a call is accepted. -/
theorem accepts_run_blank_iff (small : maxTiles < 2 ^ 63) :
    ((blank maxTiles).run calls).Accepts call ↔ call.Fits maxTiles := by
  rw [accepts_iff_fits (by rwa [size_run_blank]), size_run_blank]

theorem isSet_run_blank (small : maxTiles < 2 ^ 63) :
    ((blank maxTiles).run calls).isSet tile = true ↔
      ∃ call ∈ calls, call.Fits maxTiles ∧ call.Covers tile := by
  rw [isSet_run (by rwa [size_blank]), isSet_blank, size_blank]
  simp

/-- The marks are those of the calls that were accepted when they came. -/
theorem isSet_run_blank_iff_accepted (small : maxTiles < 2 ^ 63) :
    ((blank maxTiles).run calls).isSet tile = true ↔
      ∃ before call later, calls = before ++ call :: later ∧
        ((blank maxTiles).run before).Accepts call ∧ call.Covers tile := by
  rw [isSet_run_blank small]
  constructor
  · rintro ⟨call, mem, fits, covers⟩
    obtain ⟨before, later, split⟩ := List.append_of_mem mem
    exact ⟨before, call, later, split, (accepts_run_blank_iff small).mpr fits, covers⟩
  · rintro ⟨before, call, later, split, accepted, covers⟩
    refine ⟨call, ?_, (accepts_run_blank_iff small).mp accepted, covers⟩
    rw [split]
    exact List.mem_append_right _ List.mem_cons_self

end Blank

/-! ## Views -/

/-- The set of marked tiles. -/
def tiles (bitmap : Bitmap) : Finset Nat := bitmap.marked.toFinset

/-- Every view of a bitmap is one of a set of tiles. -/
structure Shows (bitmap : Bitmap) (tiles : Finset Nat) : Prop where
  isSet (tile : Nat) : bitmap.isSet tile = true ↔ tile ∈ tiles
  marked : bitmap.marked = tiles.sort
  count : bitmap.count = tiles.card
  bytes : bitmap.bytes = (List.range bitmap.size).map fun tile => if tile ∈ tiles then 1 else 0

theorem mem_tiles_iff {bitmap : Bitmap} {tile : Nat} :
    tile ∈ bitmap.tiles ↔ bitmap.isSet tile = true := by
  rw [tiles, List.mem_toFinset, mem_marked_iff]

theorem shows_tiles (bitmap : Bitmap) : bitmap.Shows bitmap.tiles where
  isSet _ := mem_tiles_iff.symm
  marked := by
    have nodup : bitmap.marked.Nodup := bitmap.marked_ascending.imp Nat.ne_of_lt
    have sorted : bitmap.marked.Pairwise (· ≤ ·) := bitmap.marked_ascending.imp Nat.le_of_lt
    exact ((List.toFinset_sort (· ≤ ·) nodup).mpr sorted).symm
  count := by
    have nodup : bitmap.marked.Nodup := bitmap.marked_ascending.imp Nat.ne_of_lt
    rw [tiles, List.toFinset_card_of_nodup nodup, length_marked]
  bytes := by
    rw [bytes_eq]
    simp only [mem_tiles_iff]

/-! ## What a run leaves -/

/-- A run of calls on a blank bitmap keeps its size. A call is accepted exactly when its tiles lie
in the space, and one that is rejected changes nothing. The bitmap shows, in every view, the tiles
that some call asked for and that was accepted when it came. So a tile that was marked stays marked,
and the order of the calls is of no account. -/
theorem run_exact {maxTiles : Nat} (small : maxTiles < 2 ^ 63) (calls : List Call) :
    let bitmap := (blank maxTiles).run calls
    bitmap.size = maxTiles ∧
      (∀ tile : Int64, bitmap.Accepts (.set tile) ↔ 0 ≤ tile.toInt ∧ tile.toInt < maxTiles) ∧
      (∀ range : Range, bitmap.Accepts (.setRange range) ↔
        0 ≤ range.start.toInt ∧ range.start.toInt ≤ range.stop.toInt ∧
          range.stop.toInt ≤ maxTiles) ∧
      (∀ call, ¬bitmap.Accepts call → bitmap.after call = bitmap) ∧
      (∃ tiles : Finset Nat, bitmap.Shows tiles ∧
        ∀ tile, tile ∈ tiles ↔ ∃ before call later, calls = before ++ call :: later ∧
          ((blank maxTiles).run before).Accepts call ∧ call.Covers tile) ∧
      (∀ tile, maxTiles ≤ tile → bitmap.isSet tile = false) ∧
      (∀ before later, calls = before ++ later → ∀ tile,
        ((blank maxTiles).run before).isSet tile = true → bitmap.isSet tile = true) ∧
      ∀ others : List Call, others.Perm calls → (blank maxTiles).run others = bitmap := by
  intro bitmap
  refine ⟨size_run_blank maxTiles calls, ?_, ?_, ?_, ?_, ?_, ?_, ?_⟩
  · intro tile
    exact accepts_run_blank_iff small
  · intro range
    exact accepts_run_blank_iff small
  · intro call rejected
    exact after_of_not_accepts rejected
  · refine ⟨bitmap.tiles, bitmap.shows_tiles, ?_⟩
    intro tile
    rw [mem_tiles_iff]
    exact isSet_run_blank_iff_accepted small
  · intro tile outside
    apply isSet_of_size_le
    rwa [size_run_blank]
  · intro before later split tile
    rw [isSet_run_blank small, isSet_run_blank small, split]
    rintro ⟨call, mem, asked⟩
    exact ⟨call, List.mem_append_left _ mem, asked⟩
  · intro others perm
    exact run_perm (by rwa [size_blank]) perm

/-- Requests at the limit of 64 bits, with a negative start, the wrong way round and past the end
are rejected, and the calls between them are carried out. -/
theorem run_exact_rejectedCalls :
    let calls : List Call :=
      [.set 9223372036854775807, .setRange ⟨-1, 2⟩, .set 3, .setRange ⟨3, 1⟩, .setRange ⟨4, 4⟩,
        .setRange ⟨0, 5⟩, .setRange ⟨0, 2⟩]
    4 < 2 ^ 63 ∧ ((blank 4).run calls).marked = [0, 1, 3] ∧
      ((blank 4).run calls).Accepts (.setRange ⟨4, 4⟩) ∧
      ¬((blank 4).run calls).Accepts (.set 9223372036854775807) := by
  intro calls
  have small : 4 < 2 ^ 63 := by decide
  obtain ⟨-, single, ranged, -⟩ := run_exact small calls
  refine ⟨small, by decide, (ranged ⟨4, 4⟩).mpr (by decide), ?_⟩
  intro accepted
  exact absurd ((single _).mp accepted) (by decide)

end TileCensus.Tile.Bitmap
