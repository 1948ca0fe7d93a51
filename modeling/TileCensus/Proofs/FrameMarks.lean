import TileCensus.Frames
import TileCensus.Proofs.FrameArithmetic

/-!
# The marks of actor frames are exact

Which tiles the frames of actors take up is said without any of the ways in which marking them can
fail: an action in the set of an actor has frames when it has a definition and all four names
resolve (`HasFrames`), and a tile is among them when it lies between their ends over the integers.
The law at the end says that marking the findings of all actors in a bitmap adds exactly the tiles
of the frames that lie in its tile space. A definition that is missing, a name that is unknown and a
range that does not fit each cost the one action they belong to.
-/

namespace TileCensus

open Script Tile Finding

/-! ## Frames over the integers -/

/-- A tile is in the range of the frames when it lies between their ends and these in the space. -/
theorem FrameNumbers.exists_range?_contains_iff {numbers : FrameNumbers} {maxTiles tile : Nat}
    (small : maxTiles < 2 ^ 63) :
    (∃ range, numbers.range? maxTiles = .ok range ∧ range.Contains tile ∧ tile < maxTiles) ↔
      0 ≤ numbers.first ∧ numbers.first ≤ tile ∧ (tile : Int) < numbers.stop ∧
        numbers.stop ≤ maxTiles := by
  constructor
  · rintro ⟨range, found, ⟨low, high⟩, -⟩
    obtain ⟨start_eq, stop_eq, nonneg, -, last⟩ := range?_eq_ok_iff.mp found
    rw [stop_eq] at high
    rw [start_eq] at low
    exact ⟨nonneg, low, high, last⟩
  · rintro ⟨nonneg, low, high, last⟩
    obtain ⟨range, found⟩ := (exists_range?_iff small).mpr ⟨nonneg, by omega, last⟩
    obtain ⟨start_eq, stop_eq, -⟩ := range?_eq_ok_iff.mp found
    refine ⟨range, found, ⟨?_, ?_⟩, ?_⟩ <;> omega

/-- An action has a definition, and the actor's name and the operands of the definition stand for
numbers. -/
structure HasFrames (constants : Constants) (tables : SymbolTables) (actor name : String)
    (action : ActionDef) (numbers : FrameNumbers) : Prop where
  definition : tables.actions[name]? = some action
  tile : constants.resolve? actor = some numbers.tile
  startFrame : action.startFrame.resolve? constants = some numbers.startFrame
  frameCount : action.frameCount.resolve? constants = some numbers.frameCount
  viewType : action.viewType.resolve? constants = some numbers.viewType

/-! ## What is found -/

variable {constants : Constants} {tables : SymbolTables} {maxTiles : Nat} {range : Tile.Range}

theorem frames?_eq_some_iff {tile : Int64} {action : ActionDef}
    {range? : Except RangeError Tile.Range} :
    action.frames? constants tile = some range? ↔
      ∃ startFrame frameCount viewType,
        action.startFrame.resolve? constants = some startFrame ∧
        action.frameCount.resolve? constants = some frameCount ∧
        action.viewType.resolve? constants = some viewType ∧
        frameRange tile startFrame frameCount viewType = range? := by
  unfold ActionDef.frames?
  cases action.startFrame.resolve? constants with
  | none => simp
  | some startFrame =>
    cases action.frameCount.resolve? constants with
    | none => simp
    | some frameCount =>
      cases action.viewType.resolve? constants with
      | none => simp
      | some viewType => simp

theorem mark_mem_actionFindings_iff {actor name : String} {tile : Int64} {action : ActionDef} :
    mark () range ∈ actionFindings maxTiles constants actor tile name action ↔
      ∃ range?, action.frames? constants tile = some range? ∧
        range?.bind (·.within maxTiles) = .ok range := by
  unfold actionFindings
  split
  next range? found =>
    rw [List.mem_singleton, eq_comm, ofRange_eq_mark_iff]
    simp [found]
  next found => simp [found]

theorem mark_mem_actorFindings_iff {actor : String} {actions : NameSet} :
    mark () range ∈ actorFindings maxTiles constants tables actor actions ↔
      ∃ name ∈ actions, ∃ action tile, tables.actions[name]? = some action ∧
        constants.resolve? actor = some tile ∧
        mark () range ∈ actionFindings maxTiles constants actor tile name action := by
  rw [actorFindings, List.mem_append, List.mem_flatMap]
  simp only [Std.ExtTreeSet.mem_toList]
  have unmarked : mark () range ∉ (if (constants.resolve? actor).isNone then
      [problem (unknownActor tables.actorOrigins[actor]? actor)] else []) := by
    split <;> simp
  rw [or_iff_right unmarked]
  refine exists_congr fun name => and_congr_right fun _ => ?_
  cases tables.actions[name]? with
  | none => simp
  | some action =>
    cases constants.resolve? actor with
    | none => simp
    | some tile => simp

/-- The marks that are found are the ranges of all frames that lie in the space. -/
theorem mark_mem_frameFindings_iff {actorActions : Table String NameSet} :
    mark () range ∈ frameFindings maxTiles constants tables actorActions ↔
      ∃ actor name action numbers, Relation.Holds actorActions actor name ∧
        HasFrames constants tables actor name action numbers ∧
        numbers.range? maxTiles = .ok range := by
  rw [frameFindings, List.mem_flatMap]
  constructor
  · rintro ⟨⟨actor, actions⟩, entry, mem⟩
    obtain ⟨name, listed, action, tile, definition, known, mem⟩ :=
      mark_mem_actorFindings_iff.mp mem
    obtain ⟨_, found, fits⟩ := mark_mem_actionFindings_iff.mp mem
    obtain ⟨startFrame, frameCount, viewType, start, count, view, rfl⟩ :=
      frames?_eq_some_iff.mp found
    have actions_of := Std.ExtTreeMap.mem_toList_iff_getElem?_eq_some.mp entry
    refine ⟨actor, name, action, ⟨tile, startFrame, frameCount, viewType⟩, ?_, ?_, fits⟩
    · exact Relation.holds_iff.mpr ⟨actions, actions_of, listed⟩
    · exact ⟨definition, known, start, count, view⟩
  · rintro ⟨actor, name, action, numbers, holds, has, fits⟩
    obtain ⟨actions, found, listed⟩ := Relation.holds_iff.mp holds
    refine ⟨(actor, actions), Std.ExtTreeMap.mem_toList_iff_getElem?_eq_some.mpr found, ?_⟩
    refine mark_mem_actorFindings_iff.mpr
      ⟨name, listed, action, numbers.tile, has.definition, has.tile, ?_⟩
    refine mark_mem_actionFindings_iff.mpr ⟨_, ?_, fits⟩
    exact frames?_eq_some_iff.mpr ⟨_, _, _, has.startFrame, has.frameCount, has.viewType, rfl⟩

/-! ## What is marked -/

/-- Marking all actors in a bitmap leaves its size alone and adds the tiles of those frames, and
only those, that lie in its tile space over the integers. -/
theorem isSet_markIn_frameFindings {bitmap : Bitmap} (small : bitmap.size < 2 ^ 63)
    (constants : Constants) (tables : SymbolTables) (actorActions : Table String NameSet) :
    let marked := markIn bitmap () (frameFindings bitmap.size constants tables actorActions)
    marked.size = bitmap.size ∧
      ∀ tile : Nat, marked.isSet tile = true ↔
        bitmap.isSet tile = true ∨
          ∃ actor name action numbers, Relation.Holds actorActions actor name ∧
            HasFrames constants tables actor name action numbers ∧
            0 ≤ numbers.first ∧ numbers.first ≤ tile ∧ (tile : Int) < numbers.stop ∧
            numbers.stop ≤ bitmap.size := by
  intro marked
  refine ⟨size_markIn bitmap, fun tile => ?_⟩
  rw [isSet_markIn]
  refine or_congr_right ⟨?_, ?_⟩
  · rintro ⟨range, mem, inside⟩
    obtain ⟨actor, name, action, numbers, holds, has, fits⟩ := mark_mem_frameFindings_iff.mp mem
    have between := (FrameNumbers.exists_range?_contains_iff small).mp ⟨range, fits, inside⟩
    exact ⟨actor, name, action, numbers, holds, has, between⟩
  · rintro ⟨actor, name, action, numbers, holds, has, between⟩
    obtain ⟨range, fits, inside⟩ := (FrameNumbers.exists_range?_contains_iff small).mpr between
    have mem := mark_mem_frameFindings_iff.mpr ⟨actor, name, action, numbers, holds, has, fits⟩
    exact ⟨range, mem, inside⟩

/-- In a space of 16 tiles actor 10 shows tile 13 by `AOK`, although the frames of `AHUGE` run out
of the space and `AGHOST` is not defined. -/
theorem isSet_markIn_frameFindings_of_failing_actions :
    let action := fun name words => ActionDef.ofArguments name words ⟨"a.con", 1⟩
    let tables := SymbolTables.empty.recordAll
      [.defines (action "AHUGE" ["0", "100"]), .defines (action "AOK" ["2", "2"])]
    let actorActions : Relation :=
      Relation.relate (Relation.relate (Relation.relate ∅ "10" "AGHOST") "10" "AHUGE") "10" "AOK"
    (Bitmap.blank 16).size < 2 ^ 63 ∧
      (markIn (Bitmap.blank 16) ()
        (frameFindings (Bitmap.blank 16).size ∅ tables actorActions)).isSet 13 = true := by
  intro action tables actorActions
  have small : (Bitmap.blank 16).size < 2 ^ 63 := by decide
  refine ⟨small, ((isSet_markIn_frameFindings small ∅ tables actorActions).2 13).mpr (.inr ?_)⟩
  refine ⟨"10", "AOK", action "AOK" ["2", "2"], ⟨10, 2, 2, 1⟩, ?_, ?_, by decide⟩
  · simp [actorActions, Relation.Holds, Relation.namesOf_relate]
  · refine ⟨?_, by decide, by decide, by decide, by decide⟩
    simp [tables, action, SymbolTables.recordAll, SymbolTables.record, ActionDef.ofArguments]

end TileCensus
