import TileCensus.Action

/-!
# Symbol tables

What a corpus of scripts says is a list of facts, and the symbol tables are those facts recorded
one after the other. Some facts overwrite what an earlier one said, some only fill a gap, and uses
add up; which is which is all that `SymbolTables.record` decides. A fact does not depend on the
tables, so files can be read on their own.
-/

namespace TileCensus.Script

/-! ## Facts -/

/-- The ways in which an actor or a state refers to a name. -/
inductive Link where
  | actorAction
  | stateAction
  | actorAi
  | stateAi
  | actorState
  | stateState
deriving DecidableEq, Repr

/-- One thing that a script says. -/
inductive Fact where
  /-- A full action definition. It stands in place of any other of its name. -/
  | defines (action : ActionDef)
  /-- A bare action definition. It counts only if the name has no definition. -/
  | mentions (action : ActionDef)
  /-- An AI routine with the action it is bound to. It stands in place of any other. -/
  | binds (ai : String) (action : Option String)
  /-- A bare AI routine. It counts only if the name is not known. -/
  | declares (ai : String) (action : Option String)
  /-- The action that an actor starts with, in place of any other. -/
  | starts (actor action : String)
  /-- A header of an actor. Only the first counts. -/
  | heads (actor : String) (origin : Location)
  /-- An owner refers to a name. -/
  | uses (link : Link) (owner name : String)
deriving DecidableEq

/-! ## Tables -/

/-- Everything known of a corpus of scripts. An AI routine without an action is one that binds
none. -/
structure SymbolTables where
  actions : Table String ActionDef
  ai : Table String (Option String)
  stateActions : Relation
  actorActions : Relation
  stateAi : Relation
  actorAi : Relation
  actorStates : Relation
  stateStates : Relation
  initialActions : Table String String
  actorOrigins : Table String Location

namespace SymbolTables

/-- Nothing is known. -/
def empty : SymbolTables := ⟨∅, ∅, ∅, ∅, ∅, ∅, ∅, ∅, ∅, ∅⟩

/-- The relation of a link. -/
def relation (tables : SymbolTables) : Link → Relation
  | .actorAction => tables.actorActions
  | .stateAction => tables.stateActions
  | .actorAi => tables.actorAi
  | .stateAi => tables.stateAi
  | .actorState => tables.actorStates
  | .stateState => tables.stateStates

/-- Adds a pair to the relation of a link. -/
def relate (tables : SymbolTables) (link : Link) (owner name : String) : SymbolTables :=
  match link with
  | .actorAction => { tables with actorActions := tables.actorActions.relate owner name }
  | .stateAction => { tables with stateActions := tables.stateActions.relate owner name }
  | .actorAi => { tables with actorAi := tables.actorAi.relate owner name }
  | .stateAi => { tables with stateAi := tables.stateAi.relate owner name }
  | .actorState => { tables with actorStates := tables.actorStates.relate owner name }
  | .stateState => { tables with stateStates := tables.stateStates.relate owner name }

/-- Records one fact. -/
def record (tables : SymbolTables) : Fact → SymbolTables
  | .defines action => { tables with actions := tables.actions.insert action.name action }
  | .mentions action => { tables with actions := tables.actions.insertIfNew action.name action }
  | .binds ai action => { tables with ai := tables.ai.insert ai action }
  | .declares ai action => { tables with ai := tables.ai.insertIfNew ai action }
  | .starts actor action =>
    { tables with initialActions := tables.initialActions.insert actor action }
  | .heads actor origin =>
    { tables with actorOrigins := tables.actorOrigins.insertIfNew actor origin }
  | .uses link owner name => tables.relate link owner name

/-- Records facts in order. -/
def recordAll (tables : SymbolTables) (facts : List Fact) : SymbolTables :=
  facts.foldl record tables

theorem relation_relate (tables : SymbolTables) (link other : Link) (owner name : String) :
    (tables.relate link owner name).relation other =
      if link = other then (tables.relation other).relate owner name
      else tables.relation other := by
  cases link <;> cases other <;> rfl

theorem recordAll_append (tables : SymbolTables) (first second : List Fact) :
    tables.recordAll (first ++ second) = (tables.recordAll first).recordAll second :=
  List.foldl_append

end SymbolTables

/-! ## Summary -/

/-- How many entries the tables have. -/
structure SymbolSummary where
  actorsWithInitialAction : Nat
  definedActions : Nat
  definedAi : Nat
  statesUsingActions : Nat
  statesUsingAi : Nat
  actorsUsingActions : Nat
  actorsCallingStates : Nat
  actorsUsingAi : Nat
  statesCallingStates : Nat
deriving DecidableEq, Repr

/-- The counts of the tables. -/
def SymbolTables.summary (tables : SymbolTables) : SymbolSummary where
  actorsWithInitialAction := tables.initialActions.size
  definedActions := tables.actions.size
  definedAi := tables.ai.size
  statesUsingActions := tables.stateActions.size
  statesUsingAi := tables.stateAi.size
  actorsUsingActions := tables.actorActions.size
  actorsCallingStates := tables.actorStates.size
  actorsUsingAi := tables.actorAi.size
  statesCallingStates := tables.stateStates.size

/-- The counts under the names they are reported by, in order. -/
def SymbolSummary.fields (summary : SymbolSummary) : List (String × Nat) :=
  [("actors_with_initial_action", summary.actorsWithInitialAction),
   ("defined_actions", summary.definedActions),
   ("defined_ai", summary.definedAi),
   ("states_using_actions", summary.statesUsingActions),
   ("states_using_ai", summary.statesUsingAi),
   ("actors_using_actions", summary.actorsUsingActions),
   ("actors_calling_states", summary.actorsCallingStates),
   ("actors_using_ai", summary.actorsUsingAi),
   ("states_calling_states", summary.statesCallingStates)]

end TileCensus.Script
