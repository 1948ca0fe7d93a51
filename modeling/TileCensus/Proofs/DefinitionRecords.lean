import TileCensus.Proofs.BlockTree
import TileCensus.Proofs.DefinitionHistory

/-!
# Records of definitions

A record gives the tiles from a first to a last one, on the words and arguments of its keyword and
on what the visits before have begun. `Records` has a rule for each form of record. A visit that
makes one finds the tiles of it and nothing else (`Records.findings_eq`), and no visit marks tiles
but by a record (`mark_mem_step_iff`).

A record whose first tile comes after its last one marks nothing. It is reported, except when the
last tile is the one just before the first: these two make a range with no tiles, which lies in the
space whenever its ends do (`diagnostics_reversed`, `not_forall_diagnostics_reversed`).
-/

namespace TileCensus.Definition

open Script Tile

/-! ## Records -/

/-- A visit, with those before it, gives the tiles from one to another for a bitmap. -/
inductive Records (context : Context) (history : List Visit) (visit : Visit) :
    Target → Int64 → Int64 → Prop where
  | texture {tile : Int64} (word : visit.token.word = "tilefromtexture")
      (top : nesting history = 0) (value : (visit.argument context).value = some tile) :
      Records context history visit .nonempty tile tile
  | animation {first last : Int64} (word : visit.token.word = "animtilerange")
      (top : nesting history = 0) (begins : (visit.argument context).value = some first)
      (ends : (readArgument context visit.token (visit.argument context).rest).value =
        some last) :
      Records context history visit .animation first last
  | tile {tile : Int64} (word : visit.token.word = "tile") (inside : InVoxelBlock history)
      (value : (visit.argument context).value = some tile) :
      Records context history visit .voxel tile tile
  | range {first last : Int64} (word : visit.token.word = "tile1")
      (inside : InVoxelBlock history) (begins : RangeBegun context (some first) history)
      (ends : (visit.argument context).value = some last) :
      Records context history visit .voxel first last

/-- A visit, with those before it, ends a range in a voxel block that has no first tile. -/
structure EndsUnbegun (context : Context) (history : List Visit) (visit : Visit) : Prop where
  word : visit.token.word = "tile1"
  inside : InVoxelBlock history
  ends : ∃ last, (visit.argument context).value = some last
  unbegun : ∀ first, ¬RangeBegun context (some first) history

theorem Records.inVoxelBlock {context : Context} {history : List Visit} {visit : Visit}
    {first last : Int64} (records : Records context history visit .voxel first last) :
    InVoxelBlock history := by
  cases records with
  | tile word inside value => exact inside
  | range word inside begins ends => exact inside

theorem readArgument_findings {context : Context} {keyword : Token} {tokens : List Token}
    {value : Int64} (read : (readArgument context keyword tokens).value = some value) :
    (readArgument context keyword tokens).findings = [] := by
  cases tokens with
  | nil => cases read
  | cons token rest =>
    simp only [readArgument] at read ⊢
    split at read
    next accepted =>
      rw [if_pos accepted]
      split at read
      next => rfl
      next => cases read
    next => cases read

section Findings

variable {context : Context} {history : List Visit} {visit : Visit} {target : Target}
  {first last : Int64}

/-- A record is all that its visit finds. -/
theorem Records.findings_eq (tells : Tells context history visit.state)
    (records : Records context history visit target first last) :
    (visit.step context).findings = [markTiles context target visit.token first last] := by
  obtain ⟨state, token, rest⟩ := visit
  cases records with
  | texture word top value =>
    have known : state.keyword? token.word = some .tileFromTexture :=
      keyword?_eq_some_iff.mpr ⟨word, tells.depth.trans top⟩
    have read : (readArgument context token rest).value = some first := value
    simp [Visit.step, step, known, readArgument_findings read, read]
  | animation word top begins ends =>
    have known : state.keyword? token.word = some .animTileRange :=
      keyword?_eq_some_iff.mpr ⟨word, tells.depth.trans top⟩
    have read : (readArgument context token rest).value = some first := begins
    have read' : (readArgument context token (readArgument context token rest).rest).value =
      some last := ends
    simp [Visit.step, step, known, readArgument_findings read, read, readArgument_findings read',
      read']
  | tile word inside value =>
    have known : state.keyword? token.word = some .tile :=
      keyword?_eq_some_iff.mpr ⟨word, tells.block.mpr inside⟩
    have read : (readArgument context token rest).value = some first := value
    simp [Visit.step, step, known, readArgument_findings read, read]
  | range word inside begins ends =>
    have known : state.keyword? token.word = some .tile1 :=
      keyword?_eq_some_iff.mpr ⟨word, tells.block.mpr inside⟩
    have remembered : state.tile0 = some first := (tells.memory first).mpr begins
    have read : (readArgument context token rest).value = some last := ends
    simp [Visit.step, step, known, readArgument_findings read, read, remembered]

/-- What a visit finds is a problem of an argument, a range without a beginning, or the tiles of a
record. -/
theorem mem_step_cases (tells : Tells context history visit.state) {finding : Finding Target}
    (mem : finding ∈ (visit.step context).findings) :
    (∃ tokens, finding ∈ (readArgument context visit.token tokens).findings) ∨
      EndsUnbegun context history visit ∧
        finding = .problem (missingFirst context visit.token) ∨
      ∃ target first last, Records context history visit target first last ∧
        finding = markTiles context target visit.token first last := by
  obtain ⟨state, token, rest⟩ := visit
  cases known : state.keyword? token.word with
  | none => simp [Visit.step, step, known] at mem
  | some keyword =>
    obtain ⟨word, counts⟩ := keyword?_eq_some_iff.mp known
    simp only [Visit.step, step, known] at mem
    cases keyword with
    | openBlock => simp at mem
    | closeBlock => simp at mem
    | voxel => simp at mem
    | tileFromTexture =>
      obtain mem | mem := List.mem_append.mp mem
      · exact .inl ⟨_, mem⟩
      · obtain ⟨tile, value, rfl⟩ := List.mem_map.mp mem
        exact .inr (.inr ⟨.nonempty, tile, tile,
          .texture word (tells.depth.symm.trans counts) (Option.mem_toList.mp value), rfl⟩)
    | animTileRange =>
      obtain mem | mem := List.mem_append.mp mem
      · obtain mem | mem := List.mem_append.mp mem
        · exact .inl ⟨_, mem⟩
        · exact .inl ⟨_, mem⟩
      · split at mem
        next first last begins ends =>
          obtain rfl := List.mem_singleton.mp mem
          exact .inr (.inr ⟨.animation, first, last,
            .animation word (tells.depth.symm.trans counts) begins ends, rfl⟩)
        next => exact absurd mem List.not_mem_nil
    | tile =>
      obtain mem | mem := List.mem_append.mp mem
      · exact .inl ⟨_, mem⟩
      · obtain ⟨tile, value, rfl⟩ := List.mem_map.mp mem
        exact .inr (.inr ⟨.voxel, tile, tile,
          .tile word (tells.block.mp counts) (Option.mem_toList.mp value), rfl⟩)
    | tile0 => exact .inl ⟨_, mem⟩
    | tile1 =>
      obtain mem | mem := List.mem_append.mp mem
      · exact .inl ⟨_, mem⟩
      · have inside : InVoxelBlock history := tells.block.mp counts
        split at mem
        next first last begins ends =>
          obtain rfl := List.mem_singleton.mp mem
          exact .inr (.inr ⟨.voxel, first, last,
            .range word inside ((tells.memory first).mp begins) ends, rfl⟩)
        next last forgotten ends =>
          obtain rfl := List.mem_singleton.mp mem
          refine .inr (.inl ⟨⟨word, inside, ⟨last, ends⟩, fun first begun => ?_⟩, rfl⟩)
          cases forgotten.symm.trans ((tells.memory first).mpr begun)
        next => exact absurd mem List.not_mem_nil

/-- A visit marks the tiles of its record if they lie in the space, and nothing else. -/
theorem mark_mem_step_iff (tells : Tells context history visit.state) {range : Tile.Range} :
    .mark target range ∈ (visit.step context).findings ↔
      ∃ first last, Records context history visit target first last ∧
        (inclusiveRange first last context.maxTiles).bind (·.within context.maxTiles) =
          .ok range := by
  constructor
  · intro mem
    obtain ⟨tokens, mem⟩ | ⟨-, same⟩ | ⟨other, first, last, records, same⟩ :=
      mem_step_cases tells mem
    · obtain ⟨diagnostic, same, -⟩ := exists_problem_of_mem_readArgument mem
      cases same
    · cases same
    · obtain ⟨rfl, fits⟩ := markTiles_eq_mark_iff.mp same.symm
      exact ⟨first, last, records, fits⟩
  · intro made
    obtain ⟨first, last, records, fits⟩ := made
    rw [records.findings_eq tells, markTiles_eq_mark_iff.mpr ⟨rfl, fits⟩]
    exact List.mem_singleton_self _

/-! ## Reversed records -/

/-- A record that ends before it begins has no place in a space. If it ends directly before it
begins, it makes a range with no tiles, which has one. -/
theorem markTiles_of_reversed (keyword : Token) (reversed : last.toInt < first.toInt) :
    markTiles context target keyword first last =
      if last.toInt + 1 = first.toInt ∧ 0 ≤ first.toInt ∧ first.toInt ≤ context.maxTiles then
        .mark target ⟨first, first⟩
      else
        .problem (recordOutOfRange context keyword
          (inclusiveError first last context.maxTiles)) := by
  split
  next fits =>
    refine markTiles_eq_mark_iff.mpr ⟨rfl, inclusiveRange_within_eq_ok_iff.mpr ⟨rfl, ?_⟩⟩
    dsimp only
    omega
  next outside =>
    rw [markTiles, Finding.ofRange, inclusiveRange_within_eq_error (by omega)]

theorem Records.diagnostics_of_reversed (tells : Tells context history visit.state)
    (records : Records context history visit target first last)
    (reversed : last.toInt < first.toInt) :
    Finding.diagnostics (visit.step context).findings =
      if last.toInt + 1 = first.toInt ∧ 0 ≤ first.toInt ∧ first.toInt ≤ context.maxTiles then []
      else
        [recordOutOfRange context visit.token (inclusiveError first last context.maxTiles)] := by
  rw [records.findings_eq tells, markTiles_of_reversed visit.token reversed]
  split
  next => rfl
  next => rfl

theorem Records.not_contains_of_reversed (tells : Tells context history visit.state)
    (records : Records context history visit target first last)
    (reversed : last.toInt < first.toInt) {other : Target} {range : Tile.Range}
    (marked : .mark other range ∈ (visit.step context).findings) (tile : Nat) :
    ¬range.Contains tile := by
  rw [records.findings_eq tells, markTiles_of_reversed visit.token reversed] at marked
  have same := List.mem_singleton.mp marked
  split at same
  next =>
    obtain ⟨rfl, rfl⟩ := Finding.mark.inj same
    intro inside
    obtain ⟨low, high⟩ := inside
    dsimp only at low high
    omega
  next => cases same

end Findings

/-- A record that ends before it begins marks no tile. What it adds to the problems of its file is
one, at the line of its keyword, or none if it ends directly before it begins and both of these
places are in the space or at its end. -/
theorem diagnostics_reversed {maxTiles : Nat} {constants : Constants} {source : Source}
    {earlier later : List Visit} {visit : Visit} {target : Target} {first last : Int64}
    (split : sourceVisits maxTiles constants source = earlier ++ visit :: later)
    (records : Records ⟨source.path, maxTiles, constants⟩ earlier visit target first last)
    (reversed : last.toInt < first.toInt) :
    let context : Context := ⟨source.path, maxTiles, constants⟩
    let findings := (visit.step context).findings
    sourceFindings maxTiles constants source =
        foundAt context earlier ++ findings ++ foundAt context later ∧
      (∀ other range, .mark other range ∈ findings → ∀ tile, ¬range.Contains tile) ∧
      Finding.diagnostics findings =
        if last.toInt + 1 = first.toInt ∧ 0 ≤ first.toInt ∧ first.toInt ≤ maxTiles then []
        else [recordOutOfRange context visit.token (inclusiveError first last maxTiles)] := by
  intro context findings
  have tells := tells_of_split split
  refine ⟨?_, ?_, ?_⟩
  · rw [sourceFindings_eq, split, foundAt_append_cons]
  · intro other range marked tile
    exact records.not_contains_of_reversed tells reversed marked tile
  · exact records.diagnostics_of_reversed tells reversed

/-- A range in a voxel block, with its last tile first and on a line of its own. -/
def swappedRange : Source := ⟨"tiles.def", "voxel \x7b tile0 5\ntile1 3 \x7d"⟩

/-- The visits of the range before its last tile. -/
def swappedRangeBegun : List Visit :=
  [⟨⟨0, false, none, none⟩, ⟨"voxel", 1⟩,
      [⟨"\x7b", 1⟩, ⟨"tile0", 1⟩, ⟨"5", 1⟩, ⟨"tile1", 2⟩, ⟨"3", 2⟩, ⟨"\x7d", 2⟩]⟩,
    ⟨⟨0, true, none, none⟩, ⟨"\x7b", 1⟩,
      [⟨"tile0", 1⟩, ⟨"5", 1⟩, ⟨"tile1", 2⟩, ⟨"3", 2⟩, ⟨"\x7d", 2⟩]⟩,
    ⟨⟨1, false, some 1, none⟩, ⟨"tile0", 1⟩, [⟨"5", 1⟩, ⟨"tile1", 2⟩, ⟨"3", 2⟩, ⟨"\x7d", 2⟩]⟩]

/-- The range is reported at the line of its last tile. -/
theorem diagnostics_reversed_swappedRange :
    let context : Context := ⟨"tiles.def", 64, ∅⟩
    let ended : Visit := ⟨⟨1, false, some 1, some 5⟩, ⟨"tile1", 2⟩, [⟨"3", 2⟩, ⟨"\x7d", 2⟩]⟩
    let closed : Visit := ⟨⟨1, false, some 1, none⟩, ⟨"\x7d", 2⟩, []⟩
    sourceVisits 64 ∅ swappedRange = swappedRangeBegun ++ ended :: [closed] ∧
      Records context swappedRangeBegun ended .voxel 5 3 ∧ (3 : Int64).toInt < (5 : Int64).toInt ∧
      Finding.diagnostics (ended.step context).findings =
        [⟨.tileOutOfRange, some ⟨"tiles.def", 2⟩,
          "tile1: tile range 5..4 has negative length"⟩] := by
  intro context ended closed
  have split : sourceVisits 64 ∅ swappedRange = swappedRangeBegun ++ ended :: [closed] := by cbv
  have tells : Tells context swappedRangeBegun ended.state := tells_of_split split
  have ends : (ended.argument context).value = some 3 := by cbv
  have records : Records context swappedRangeBegun ended .voxel 5 3 :=
    .range rfl (tells.block.mp rfl) ((tells.memory 5).mp rfl) ends
  have reversed : (3 : Int64).toInt < (5 : Int64).toInt := by decide
  refine ⟨split, records, reversed, ?_⟩
  obtain ⟨-, -, reported⟩ := diagnostics_reversed split records reversed
  refine reported.trans ?_
  cbv

/-- A range whose last tile is the one before the first. -/
def emptyRange : Source := ⟨"tiles.def", "animtilerange 5 4"⟩

/-- Not every record that ends before it begins is reported. -/
theorem not_forall_diagnostics_reversed :
    ¬∀ (maxTiles : Nat) (constants : Constants) (source : Source) (earlier later : List Visit)
        (visit : Visit) (target : Target) (first last : Int64),
      sourceVisits maxTiles constants source = earlier ++ visit :: later →
      Records ⟨source.path, maxTiles, constants⟩ earlier visit target first last →
      last.toInt < first.toInt →
      ∃ diagnostic,
        Finding.diagnostics (visit.step ⟨source.path, maxTiles, constants⟩).findings =
          [diagnostic] ∧
        diagnostic.kind = .tileOutOfRange ∧
        diagnostic.location = some ⟨source.path, visit.token.line⟩ := by
  intro claim
  let context : Context := ⟨"tiles.def", 64, ∅⟩
  let visit : Visit := ⟨State.initial, ⟨"animtilerange", 1⟩, [⟨"5", 1⟩, ⟨"4", 1⟩]⟩
  have split : sourceVisits 64 ∅ emptyRange = [] ++ visit :: [] := by cbv
  have begins : (visit.argument context).value = some 5 := by cbv
  have ends : (readArgument context visit.token (visit.argument context).rest).value = some 4 := by
    cbv
  have records : Records context [] visit .animation 5 4 := .animation rfl rfl begins ends
  have reversed : (4 : Int64).toInt < (5 : Int64).toInt := by decide
  obtain ⟨diagnostic, reported, -⟩ := claim _ _ _ _ _ _ _ _ _ split records reversed
  have silent := records.diagnostics_of_reversed (tells_of_split split) reversed
  rw [if_pos (by decide)] at silent
  cases silent.symm.trans reported

end TileCensus.Definition
