import TileCensus.Finding
import TileCensus.Script.Symbols

/-!
# Actor frames

The tiles that actors can display: for each actor and each action it can reach, the frames of the
action from the actor's tile on. An action that cannot be placed is reported and leaves the others
alone. Actors and actions are taken in ascending order of their names.
-/

namespace TileCensus

open Script Tile

/-! ## What there is to report -/

/-- The name of an actor stands for no tile. -/
def unknownActor (origin : Option Location) (actor : String) : Diagnostic :=
  ⟨.unresolvedName, origin, s!"actor name '{actor}' is unknown; its actions are skipped"⟩

/-- An actor can reach an action that has no definition. -/
def undefinedAction (origin : Option Location) (name actor : String) : Diagnostic :=
  ⟨.undefinedAction, origin, s!"undefined action '{name}' in actor '{actor}'"⟩

/-- An argument of an action's definition stands for no number. -/
def unknownOperand (action : ActionDef) (actor : String) (operand : Operand) : Diagnostic :=
  let name := operand.text
  let actionName := action.name
  ⟨.unresolvedName, some action.origin,
    s!"name '{name}' is unknown (action '{actionName}' of actor '{actor}')"⟩

/-- The frames of an action do not lie in the tile space. -/
def framesOutOfRange (action : ActionDef) (name actor : String) (reason : RangeError) :
    Diagnostic :=
  let reason := reason.message
  ⟨.tileOutOfRange, some action.origin, s!"action '{name}' of actor '{actor}': {reason}"⟩

/-! ## Frames -/

/-- The operands of an action, in the order they are written. -/
def ActionDef.operands (action : ActionDef) : List Operand :=
  [action.startFrame, action.frameCount, action.viewType]

/-- The frames of an action from a tile on, when all its operands are known. -/
def ActionDef.frames? (constants : Constants) (tile : Int64) (action : ActionDef) :
    Option (Except RangeError Tile.Range) := do
  let startFrame ← action.startFrame.resolve? constants
  let frameCount ← action.frameCount.resolve? constants
  let viewType ← action.viewType.resolve? constants
  return frameRange tile startFrame frameCount viewType

/-- What is found for one action of an actor whose tile is known: a mark, or a problem for each
operand that is not known, or one for a range that does not fit. -/
def actionFindings (maxTiles : Nat) (constants : Constants) (actor : String) (tile : Int64)
    (name : String) (action : ActionDef) : List (Finding Unit) :=
  match action.frames? constants tile with
  | some range => [.ofRange () maxTiles (framesOutOfRange action name actor) range]
  | none =>
    (action.operands.filter fun operand => (operand.resolve? constants).isNone).map fun operand =>
      .problem (unknownOperand action actor operand)

/-- What is found for an actor and the actions it can reach. -/
def actorFindings (maxTiles : Nat) (constants : Constants) (tables : SymbolTables)
    (actor : String) (actions : NameSet) : List (Finding Unit) :=
  let origin := tables.actorOrigins[actor]?
  let tile? := constants.resolve? actor
  let unknown := if tile?.isNone then [.problem (unknownActor origin actor)] else []
  unknown ++ actions.toList.flatMap fun name =>
    match tables.actions[name]?, tile? with
    | none, _ => [.problem (undefinedAction origin name actor)]
    | some _, none => []
    | some action, some tile => actionFindings maxTiles constants actor tile name action

/-- What is found for all actors. -/
def frameFindings (maxTiles : Nat) (constants : Constants) (tables : SymbolTables)
    (actorActions : Table String NameSet) : List (Finding Unit) :=
  actorActions.toList.flatMap fun (actor, actions) =>
    actorFindings maxTiles constants tables actor actions

end TileCensus
