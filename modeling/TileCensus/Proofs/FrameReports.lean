import TileCensus.Proofs.FrameMarks

/-!
# Every frame range is accounted for

What is reported for an action of an actor is said by a relation with one rule for each way it can
go (`Reports`). The rules exclude each other, and one of them always applies
(`reports_iff`). The reports on all frames are those on the actions of one actor after the other,
each actor's led by the report that its name is unknown, if it is (`frameFindings_reports`). So
nothing is reported for an action of a known actor exactly if its frames are marked whole.
-/

namespace TileCensus

open Script Tile Finding

/-! ## Reports on one action -/

/-- What is reported for an action that an actor can reach. The rules have no order: whether the
action is defined, the actor known and the operands known is asked of each of them. -/
inductive Reports (maxTiles : Nat) (constants : Constants) (tables : SymbolTables)
    (actor name : String) : List Diagnostic → Prop where
  /-- The action has no definition, be the actor known or not. -/
  | undefined (absent : tables.actions[name]? = none) :
      Reports maxTiles constants tables actor name
        [undefinedAction tables.actorOrigins[actor]? name actor]
  /-- The actor is unknown, which is reported once for all its actions. -/
  | skipped {action : ActionDef} (definition : tables.actions[name]? = some action)
      (unknown : constants.resolve? actor = none) :
      Reports maxTiles constants tables actor name []
  /-- Operands are unknown. Each of them is reported, in the order they are written. -/
  | unknownOperands {action : ActionDef} {tile : Int64}
      (definition : tables.actions[name]? = some action)
      (known : constants.resolve? actor = some tile)
      (unknown : ∃ operand ∈ action.operands, operand.resolve? constants = none) :
      Reports maxTiles constants tables actor name
        ((action.operands.filter fun operand => (operand.resolve? constants).isNone).map
          (unknownOperand action actor))
  /-- The frames do not make a range of the space. -/
  | rejected {action : ActionDef} {numbers : FrameNumbers} {reason : RangeError}
      (frames : HasFrames constants tables actor name action numbers)
      (outside : numbers.range? maxTiles = .error reason) :
      Reports maxTiles constants tables actor name [framesOutOfRange action name actor reason]
  /-- The frames are marked. -/
  | marked {action : ActionDef} {numbers : FrameNumbers} {range : Tile.Range}
      (frames : HasFrames constants tables actor name action numbers)
      (inside : numbers.range? maxTiles = .ok range) :
      Reports maxTiles constants tables actor name []

variable {maxTiles : Nat} {constants : Constants} {tables : SymbolTables} {actor name : String}

theorem frames?_eq_none_iff {tile : Int64} {action : ActionDef} :
    action.frames? constants tile = none ↔
      ∃ operand ∈ action.operands, operand.resolve? constants = none := by
  have listed : (∃ operand ∈ action.operands, operand.resolve? constants = none) ↔
      action.startFrame.resolve? constants = none ∨ action.frameCount.resolve? constants = none ∨
        action.viewType.resolve? constants = none := by
    simp [ActionDef.operands]
  rw [listed, ActionDef.frames?]
  cases action.startFrame.resolve? constants with
  | none => simp
  | some startFrame =>
    cases action.frameCount.resolve? constants with
    | none => simp
    | some frameCount =>
      cases action.viewType.resolve? constants with
      | none => simp
      | some viewType => simp

theorem diagnostics_actionFindings_of_unknown {tile : Int64} {action : ActionDef}
    (unknown : ∃ operand ∈ action.operands, operand.resolve? constants = none) :
    diagnostics (actionFindings maxTiles constants actor tile name action) =
      (action.operands.filter fun operand => (operand.resolve? constants).isNone).map
        (unknownOperand action actor) := by
  rw [actionFindings, frames?_eq_none_iff.mpr unknown]
  show diagnostics ((action.operands.filter _).map (problem ∘ unknownOperand action actor)) = _
  rw [← List.map_map, diagnostics_map_problem]

theorem HasFrames.actionFindings_eq {action : ActionDef} {numbers : FrameNumbers}
    (frames : HasFrames constants tables actor name action numbers) :
    actionFindings maxTiles constants actor numbers.tile name action =
      match numbers.range? maxTiles with
      | .ok range => [mark () range]
      | .error reason => [problem (framesOutOfRange action name actor reason)] := by
  have found : action.frames? constants numbers.tile = some (frameRange numbers.tile
      numbers.startFrame numbers.frameCount numbers.viewType) :=
    frames?_eq_some_iff.mpr
      ⟨_, _, _, frames.startFrame, frames.frameCount, frames.viewType, rfl⟩
  rw [actionFindings, found]
  show [ofRange () maxTiles (framesOutOfRange action name actor) _] = _
  rw [ofRange, FrameNumbers.range?]
  cases (frameRange numbers.tile numbers.startFrame numbers.frameCount numbers.viewType).bind
    (·.within maxTiles) with
  | ok range => rfl
  | error reason => rfl

/-- What is found for an action that an actor can reach. -/
def reachedFindings (maxTiles : Nat) (constants : Constants) (tables : SymbolTables)
    (actor name : String) : List (Finding Unit) :=
  match tables.actions[name]?, constants.resolve? actor with
  | none, _ => [.problem (undefinedAction tables.actorOrigins[actor]? name actor)]
  | some _, none => []
  | some action, some tile => actionFindings maxTiles constants actor tile name action

theorem actorFindings_eq (actions : NameSet) :
    actorFindings maxTiles constants tables actor actions =
      (if (constants.resolve? actor).isNone then
        [.problem (unknownActor tables.actorOrigins[actor]? actor)] else []) ++
      actions.toList.flatMap (reachedFindings maxTiles constants tables actor) := by
  rw [actorFindings]
  congr 1
  apply List.flatMap_congr
  intro name _
  rw [reachedFindings]
  cases tables.actions[name]? with
  | none => rfl
  | some action =>
    cases constants.resolve? actor with
    | none => rfl
    | some tile => rfl

theorem Reports.eq_diagnostics {reports : List Diagnostic}
    (reported : Reports maxTiles constants tables actor name reports) :
    reports = diagnostics (reachedFindings maxTiles constants tables actor name) := by
  cases reported with
  | undefined absent =>
    rw [reachedFindings, absent]
    rfl
  | skipped definition unknown =>
    rw [reachedFindings, definition, unknown]
    rfl
  | unknownOperands definition known unknown =>
    rw [reachedFindings, definition, known]
    exact (diagnostics_actionFindings_of_unknown unknown).symm
  | rejected frames outside =>
    rw [reachedFindings, frames.definition, frames.tile]
    simp only [frames.actionFindings_eq, outside]
    rfl
  | marked frames inside =>
    rw [reachedFindings, frames.definition, frames.tile]
    simp only [frames.actionFindings_eq, inside]
    rfl

theorem exists_reports (maxTiles : Nat) (constants : Constants) (tables : SymbolTables)
    (actor name : String) : ∃ reports, Reports maxTiles constants tables actor name reports := by
  cases definition : tables.actions[name]? with
  | none => exact ⟨_, .undefined definition⟩
  | some action =>
    cases known : constants.resolve? actor with
    | none => exact ⟨_, .skipped definition known⟩
    | some tile =>
      cases found : action.frames? constants tile with
      | none => exact ⟨_, .unknownOperands definition known (frames?_eq_none_iff.mp found)⟩
      | some range? =>
        obtain ⟨startFrame, frameCount, viewType, start, count, view, -⟩ :=
          frames?_eq_some_iff.mp found
        have frames : HasFrames constants tables actor name action
            ⟨tile, startFrame, frameCount, viewType⟩ := ⟨definition, known, start, count, view⟩
        cases placed : FrameNumbers.range? ⟨tile, startFrame, frameCount, viewType⟩ maxTiles with
        | error reason => exact ⟨_, .rejected frames placed⟩
        | ok range => exact ⟨_, .marked frames placed⟩

/-- There is one way to report an action, and what is found for it tells which. -/
theorem reports_iff {reports : List Diagnostic} :
    Reports maxTiles constants tables actor name reports ↔
      reports = diagnostics (reachedFindings maxTiles constants tables actor name) := by
  constructor
  · exact Reports.eq_diagnostics
  · rintro rfl
    obtain ⟨reports, reported⟩ := exists_reports maxTiles constants tables actor name
    rwa [← reported.eq_diagnostics]

/-! ## Frames that are marked whole -/

/-- The frames of an action are marked whole in a bitmap. Their ends are tile numbers and lie in its
space, and every tile between them is marked. -/
structure FrameNumbers.IsMarkedIn (numbers : FrameNumbers) (bitmap : Bitmap) : Prop where
  ends : ∃ start stop : Int64, start.toInt = numbers.first ∧ stop.toInt = numbers.stop
  nonneg : 0 ≤ numbers.first
  ordered : numbers.first ≤ numbers.stop
  inside : numbers.stop ≤ bitmap.size
  marked : ∀ tile : Nat, numbers.first ≤ tile → (tile : Int) < numbers.stop →
    bitmap.isSet tile = true

/-- Nothing is reported for an action of a known actor exactly if its frames are marked whole. -/
theorem reports_nil_iff {bitmap : Bitmap} {actorActions : Table String NameSet} {tile : Int64}
    (reached : Relation.Holds actorActions actor name)
    (known : constants.resolve? actor = some tile) :
    Reports bitmap.size constants tables actor name [] ↔
      ∃ action numbers, HasFrames constants tables actor name action numbers ∧
        numbers.IsMarkedIn
          (markIn bitmap () (frameFindings bitmap.size constants tables actorActions)) := by
  constructor
  · intro silent
    generalize none_reported : ([] : List Diagnostic) = reports at silent
    cases silent with
    | undefined absent => cases none_reported
    | skipped definition unknown =>
      rw [known] at unknown
      cases unknown
    | unknownOperands definition known unknown =>
      obtain ⟨operand, mem, unresolved⟩ := unknown
      have listed := List.map_eq_nil_iff.mp none_reported.symm
      have resolved := List.filter_eq_nil_iff.mp listed operand mem
      rw [unresolved] at resolved
      exact absurd rfl resolved
    | rejected frames outside => cases none_reported
    | @marked action numbers range frames inside =>
      obtain ⟨start, stop, nonneg, ordered, last⟩ := FrameNumbers.range?_eq_ok_iff.mp inside
      refine ⟨action, numbers, frames, ⟨_, _, start, stop⟩, nonneg, ordered, ?_, ?_⟩
      · rwa [size_markIn]
      · intro tile low high
        apply isSet_markIn.mpr
        have found := mark_mem_frameFindings_iff.mpr ⟨actor, name, action, numbers, reached, frames,
          inside⟩
        refine .inr ⟨range, found, ⟨?_, ?_⟩, ?_⟩ <;> omega
  · rintro ⟨action, numbers, frames, whole⟩
    obtain ⟨start, stop, start_eq, stop_eq⟩ := whole.ends
    have last := whole.inside
    rw [size_markIn] at last
    have inside : numbers.range? bitmap.size = .ok ⟨start, stop⟩ :=
      FrameNumbers.range?_eq_ok_iff.mpr ⟨start_eq, stop_eq, whole.nonneg, whole.ordered, last⟩
    exact .marked frames inside

/-! ## Reports on all frames -/

/-- Placing the frames of all actors reports, for each actor in ascending order, that its name is
unknown if it is, and then what there is to report for each of its actions in ascending order, which
is given by exactly one rule of `Reports`. Nothing is reported for an action of a known actor exactly
if its frames are marked whole. -/
theorem frameFindings_reports (bitmap : Bitmap) (constants : Constants) (tables : SymbolTables)
    (actorActions : Table String NameSet) :
    let findings := frameFindings bitmap.size constants tables actorActions
    actorActions.keys.Pairwise (· < ·) ∧
    (∀ (actor : String) (actions : NameSet), actorActions[actor]? = some actions →
      actions.toList.Pairwise (· < ·)) ∧
    (∀ actor name, ∃! reports, Reports bitmap.size constants tables actor name reports) ∧
    (∃ reports : String → String → List Diagnostic,
      (∀ actor name, Reports bitmap.size constants tables actor name (reports actor name)) ∧
      Finding.diagnostics findings = actorActions.toList.flatMap fun (actor, actions) =>
        (if constants.resolve? actor = none then
          [unknownActor tables.actorOrigins[actor]? actor] else []) ++
        actions.toList.flatMap (reports actor)) ∧
    ∀ actor name tile, Relation.Holds actorActions actor name →
      constants.resolve? actor = some tile →
      (Reports bitmap.size constants tables actor name [] ↔
        ∃ action numbers, HasFrames constants tables actor name action numbers ∧
          numbers.IsMarkedIn (markIn bitmap () findings)) := by
  intro findings
  refine ⟨actorActions.keys_ascending, ?_, ?_, ?_, ?_⟩
  · intro _ actions _
    exact actions.toList_ascending
  · intro actor name
    exact ⟨_, reports_iff.mpr rfl, fun reports reported => reports_iff.mp reported⟩
  · refine ⟨fun actor name =>
      Finding.diagnostics (reachedFindings bitmap.size constants tables actor name), ?_, ?_⟩
    · intro actor name
      exact reports_iff.mpr rfl
    · show Finding.diagnostics (frameFindings bitmap.size constants tables actorActions) = _
      rw [frameFindings, diagnostics_flatMap]
      apply List.flatMap_congr
      rintro ⟨actor, actions⟩ _
      simp only [actorFindings_eq, diagnostics_append, diagnostics_flatMap, Option.isNone_iff_eq_none]
      congr 1
      split
      next => rfl
      next => rfl
  · intro actor name tile reached known
    exact reports_nil_iff reached known

end TileCensus
