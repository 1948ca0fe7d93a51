import TileCensus.Diagnostic
import TileCensus.Script.Symbols

/-!
# Reachable actions

An actor can display the actions it uses itself, those used in a state it can reach, the one it
starts with, and those that its AI routines are bound to. Calls of states form an arbitrary
directed graph, cycles included. `reachFrom` walks it with a list of pending states and visits
every state once: a step either shortens the list or visits a state for the first time.
-/

namespace TileCensus.Script

/-! ## Reachable states -/

/-- A path of references from one name to another. -/
inductive Reaches (edges : Relation) : String → String → Prop where
  | refl (name : String) : Reaches edges name name
  | step {first next last : String} (edge : edges.Holds first next)
      (path : Reaches edges next last) : Reaches edges first last

/-- Every name that some owner refers to. -/
def targets (edges : Relation) : List String := edges.toList.flatMap fun (_, names) => names.toList

/-- The targets not visited yet. -/
def unvisited (edges : Relation) (visited : NameSet) : Nat :=
  (targets edges).countP (· ∉ visited)

private theorem countP_lt {α : Type} {p q : α → Bool} {l : List α}
    (weaker : ∀ x ∈ l, q x = true → p x = true) {a : α} (mem : a ∈ l) (hp : p a = true)
    (hq : q a = false) : l.countP q < l.countP p := by
  induction l with
  | nil => cases mem
  | cons b l ih =>
    have rest : l.countP q ≤ l.countP p :=
      List.countP_mono_left fun x hx => weaker x (List.mem_cons_of_mem _ hx)
    grind

theorem mem_targets {edges : Relation} {owner name : String} (h : edges.Holds owner name) :
    name ∈ targets edges := by
  rw [Relation.Holds, Relation.namesOf] at h
  cases found : edges[owner]? with
  | none => simp [found] at h
  | some names =>
    rw [found, Option.getD_some] at h
    exact List.mem_flatMap.mpr ⟨(owner, names),
      Std.ExtTreeMap.mem_toList_iff_getElem?_eq_some.mpr found, Std.ExtTreeSet.mem_toList.mpr h⟩

theorem unvisited_lt {edges : Relation} {visited : NameSet} {owner : String} {name : String}
    {fresh : List String} (target : edges.Holds owner name) (new : name ∉ visited)
    (mem : name ∈ fresh) :
    unvisited edges (visited.insertMany fresh) < unvisited edges visited := by
  refine countP_lt (fun other _ h => ?_) (mem_targets target) (by simpa using new) ?_
  · simp only [decide_eq_true_eq, NameSet.mem_insertMany] at h ⊢
    exact fun seen => h (.inl seen)
  · simp only [decide_eq_false_iff_not, NameSet.mem_insertMany, Decidable.not_not]
    exact .inr mem

/-- The names visited once every pending name has been expanded. -/
def reachFrom (edges : Relation) (visited : NameSet) (pending : List String) : NameSet :=
  match pending with
  | [] => visited
  | name :: pending =>
    let fresh := (edges.namesOf name).toList.filter (· ∉ visited)
    reachFrom edges (visited.insertMany fresh) (pending ++ fresh)
termination_by (unvisited edges visited, pending.length)
decreasing_by
  cases h : (edges.namesOf name).toList.filter (· ∉ visited) with
  | nil => exact Prod.Lex.right _ (by simp)
  | cons first rest =>
    have mem : first ∈ (edges.namesOf name).toList.filter (· ∉ visited) :=
      h ▸ List.mem_cons_self
    have ⟨target, new⟩ := List.mem_filter.mp mem
    exact Prod.Lex.left _ _ (unvisited_lt (Std.ExtTreeSet.mem_toList.mp target)
      (by simpa using new) List.mem_cons_self)

/-- The names that can be reached from a name, itself included. -/
def reachable (edges : Relation) (start : String) : NameSet :=
  reachFrom edges (.ofList [start]) [start]

/-! ## Usage of states -/

/-- Actions and AI routines that are used somewhere. -/
@[ext]
structure Usage where
  actions : NameSet
  ai : NameSet

namespace Usage

/-- Nothing is used. -/
def empty : Usage := ⟨∅, ∅⟩

instance : Inhabited Usage := ⟨empty⟩

/-- What is used on either side. -/
def union (first second : Usage) : Usage where
  actions := first.actions ∪ second.actions
  ai := first.ai ∪ second.ai

end Usage

namespace SymbolTables

/-- What a state uses itself. -/
def directUsage (tables : SymbolTables) (state : String) : Usage where
  actions := tables.stateActions.namesOf state
  ai := tables.stateAi.namesOf state

/-- What a state and the states it can reach use. -/
def usageOfState (tables : SymbolTables) (state : String) : Usage :=
  (reachable tables.stateStates state).toList.foldl
    (fun usage reached => usage.union (tables.directUsage reached)) Usage.empty

/-- The states that use or call anything. -/
def states (tables : SymbolTables) : NameSet :=
  .ofList (tables.stateActions.keys ++ tables.stateAi.keys ++ tables.stateStates.keys)

/-- What each state uses together with the states it can reach. -/
def usageOfStates (tables : SymbolTables) : Table String Usage :=
  .ofList (tables.states.toList.map fun state => (state, tables.usageOfState state))

/-! ## Actors -/

/-- The actors that use, call or start with anything. -/
def actors (tables : SymbolTables) : NameSet :=
  .ofList (tables.actorActions.keys ++ tables.actorAi.keys ++ tables.actorStates.keys ++
    tables.initialActions.keys)

/-- What an actor uses itself or through the states it calls, with the action it starts with. -/
def usageOfActor (tables : SymbolTables) (usages : Table String Usage) (actor : String) : Usage :=
  let own : Usage :=
    { actions :=
        (tables.actorActions.namesOf actor).insertMany tables.initialActions[actor]?.toList
      ai := tables.actorAi.namesOf actor }
  (tables.actorStates.namesOf actor).toList.foldl
    (fun usage state => usage.union (usages[state]?.getD Usage.empty)) own

/-- The actions that AI routines are bound to. -/
def boundActions (tables : SymbolTables) (ai : NameSet) : List String :=
  ai.toList.filterMap fun name => tables.ai[name]?.join

/-- The AI routines that are not known. -/
def unknownAi (tables : SymbolTables) (ai : NameSet) : List String :=
  ai.toList.filter fun name => name ∉ tables.ai

end SymbolTables

/-! ## Resolution -/

/-- An actor can reach an AI routine that is not known. -/
def undefinedAi (name actor : String) : Diagnostic :=
  ⟨.undefinedAi, none, s!"undefined ai '{name}' in actor '{actor}'"⟩

/-- No actor can reach an action. -/
def unusedAction (name : String) : Diagnostic :=
  ⟨.unusedAction, none, s!"action '{name}' is never used"⟩

/-- The actions that each actor can display, the defined actions that none can, and what there is
to report. -/
structure Resolution where
  actorActions : Table String NameSet
  unusedActions : NameSet
  diagnostics : List Diagnostic

/-- Resolves every actor, in ascending order. -/
def SymbolTables.resolve (tables : SymbolTables) : Resolution :=
  let usages := tables.usageOfStates
  let resolved := tables.actors.toList.map fun actor => (actor, tables.usageOfActor usages actor)
  let actorActions := .ofList (resolved.map fun (actor, usage) =>
    (actor, usage.actions.insertMany (tables.boundActions usage.ai)))
  let unused := tables.actions.keys.filter fun name =>
    !actorActions.toList.any fun (_, actions) => name ∈ actions
  { actorActions
    unusedActions := .ofList unused
    diagnostics :=
      (resolved.flatMap fun (actor, usage) =>
        (tables.unknownAi usage.ai).map fun name => undefinedAi name actor) ++
      unused.map unusedAction }

end TileCensus.Script
