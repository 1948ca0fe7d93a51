import TileCensus.Script.Reach

/-!
# Reachability is exact

What an actor can display is given twice over: as paths of calls (`SymbolTables.Displays`), and as
the sets that resolving computes by a walk with pending and visited states. The law
at the end says that the two agree for every actor and action, whatever the tables hold; cycles of
calls and states that are called but never defined are nothing special.

The walk is sound because it only ever visits what an edge leads to from a pending name
(`reaches_of_mem_reachFrom`). It is complete because it keeps `Expanded`: a visited name that is no
longer pending has all its successors visited. When nothing is pending, no edge leads out of what
was visited, so no path does.
-/

namespace TileCensus.Script

/-! ## The walk -/

section Walk

variable {edges : Relation} {visited : NameSet} {pending : List String} {name : String}

theorem mem_reachFrom_of_mem (mem : name ∈ visited) : name ∈ reachFrom edges visited pending := by
  fun_induction reachFrom edges visited pending with
  | case1 visited => exact mem
  | case2 visited owner pending fresh ih => exact ih (NameSet.mem_insertMany.mpr (.inl mem))

theorem reaches_of_mem_reachFrom (mem : name ∈ reachFrom edges visited pending) :
    name ∈ visited ∨ ∃ start ∈ pending, Reaches edges start name := by
  fun_induction reachFrom edges visited pending with
  | case1 visited => exact .inl mem
  | case2 visited owner pending fresh ih =>
    have fresh_edge : ∀ next ∈ fresh, edges.Holds owner next := fun next found =>
      Std.ExtTreeSet.mem_toList.mp (List.mem_filter.mp found).1
    rcases ih mem with seen | ⟨start, queued, path⟩
    · rcases NameSet.mem_insertMany.mp seen with seen | found
      · exact .inl seen
      · exact .inr ⟨owner, List.mem_cons_self, .step (fresh_edge name found) (.refl name)⟩
    · rcases List.mem_append.mp queued with queued | found
      · exact .inr ⟨start, List.mem_cons_of_mem _ queued, path⟩
      · exact .inr ⟨owner, List.mem_cons_self, .step (fresh_edge start found) path⟩

/-- Every visited name that is no longer pending has all its successors visited. -/
def Expanded (edges : Relation) (visited : NameSet) (pending : List String) : Prop :=
  ∀ owner ∈ visited, owner ∉ pending → ∀ next, edges.Holds owner next → next ∈ visited

theorem reachFrom_expanded (expanded : Expanded edges visited pending) :
    Expanded edges (reachFrom edges visited pending) [] := by
  fun_induction reachFrom edges visited pending with
  | case1 visited => exact expanded
  | case2 visited owner pending fresh ih =>
    refine ih ?_
    intro other seen unqueued next edge
    rw [List.mem_append, not_or] at unqueued
    rw [NameSet.mem_insertMany] at seen ⊢
    by_cases known : next ∈ visited
    · exact .inl known
    by_cases same : other = owner
    · -- the name just expanded: what was not visited before is fresh
      subst same
      refine .inr (List.mem_filter.mpr ⟨Std.ExtTreeSet.mem_toList.mpr edge, ?_⟩)
      simpa using known
    · have seen : other ∈ visited := seen.resolve_right unqueued.2
      have waiting : other ∉ owner :: pending := by simp [same, unqueued.1]
      exact .inl (expanded other seen waiting next edge)

theorem Reaches.mem_of_expanded {first last : String} (path : Reaches edges first last)
    (expanded : Expanded edges visited []) (mem : first ∈ visited) : last ∈ visited := by
  induction path with
  | refl => exact mem
  | step edge _ ih => exact ih (expanded _ mem List.not_mem_nil _ edge)

/-- The states that the walk visits are those that a path of calls leads to. -/
theorem mem_reachable_iff {start : String} :
    name ∈ reachable edges start ↔ Reaches edges start name := by
  rw [reachable]
  constructor
  · intro mem
    rcases reaches_of_mem_reachFrom mem with seen | ⟨other, queued, path⟩
    · obtain rfl : start = name := by simpa using seen
      exact .refl start
    · obtain rfl := List.mem_singleton.mp queued
      exact path
  · intro path
    refine path.mem_of_expanded (reachFrom_expanded ?_) (mem_reachFrom_of_mem (by simp))
    intro owner seen unqueued
    have same : start = owner := by simpa using seen
    exact absurd (List.mem_singleton.mpr same.symm) unqueued

end Walk

/-! ## Usage of states -/

/-- A choice of the actions or of the AI routines, made alike of every usage. -/
structure Usage.IsPart (part : Usage → NameSet) : Prop where
  empty : part .empty = ∅
  union (first second : Usage) : part (first.union second) = part first ∪ part second

theorem Usage.IsPart.actions : IsPart Usage.actions := ⟨rfl, fun _ _ => rfl⟩

theorem Usage.IsPart.ai : IsPart Usage.ai := ⟨rfl, fun _ _ => rfl⟩

variable {part : Usage → NameSet} {name : String}

theorem Usage.IsPart.mem_foldl_union {α : Type} (isPart : IsPart part) (use : α → Usage)
    (items : List α) (usage : Usage) :
    name ∈ part (items.foldl (fun usage item => usage.union (use item)) usage) ↔
      name ∈ part usage ∨ ∃ item ∈ items, name ∈ part (use item) := by
  induction items generalizing usage with
  | nil => simp
  | cons item items ih =>
    rw [List.foldl_cons, ih, isPart.union, Std.ExtTreeSet.mem_union_iff, or_assoc]
    simp

namespace SymbolTables

variable (tables : SymbolTables)

theorem mem_usageOfState_iff (isPart : Usage.IsPart part) {state : String} :
    name ∈ part (tables.usageOfState state) ↔
      ∃ reached, Reaches tables.stateStates state reached ∧
        name ∈ part (tables.directUsage reached) := by
  rw [usageOfState, isPart.mem_foldl_union, isPart.empty]
  simp [mem_reachable_iff]

theorem mem_states_iff {state : String} :
    state ∈ tables.states ↔
      state ∈ tables.stateActions ∨ state ∈ tables.stateAi ∨ state ∈ tables.stateStates := by
  simp [states]

/-- A state that uses and calls nothing has an empty usage. -/
theorem usageOfState_of_not_mem {state : String} (absent : state ∉ tables.states) :
    tables.usageOfState state = .empty := by
  rw [mem_states_iff, not_or, not_or] at absent
  obtain ⟨no_actions, no_ai, no_calls⟩ := absent
  have direct : tables.directUsage state = .empty := by
    rw [directUsage, Relation.namesOf_of_not_mem no_actions, Relation.namesOf_of_not_mem no_ai]
    rfl
  have unused : ∀ {part : Usage → NameSet}, Usage.IsPart part →
      part (tables.usageOfState state) = ∅ := by
    intro part isPart
    refine Std.ExtTreeSet.ext_mem fun name => ?_
    rw [mem_usageOfState_iff tables isPart]
    refine iff_of_false ?_ Std.ExtTreeSet.not_mem_empty
    rintro ⟨reached, path, used⟩
    cases path with
    | refl =>
      rw [direct, isPart.empty] at used
      exact Std.ExtTreeSet.not_mem_empty used
    | step edge _ => exact no_calls (Relation.mem_of_holds edge)
  exact Usage.ext (unused .actions) (unused .ai)

/-- A state that is absent from the precomputed table uses nothing, so its default is right. -/
theorem getD_usageOfStates (state : String) :
    tables.usageOfStates[state]?.getD .empty = tables.usageOfState state := by
  rw [usageOfStates, Table.getElem?_ofList_map (NameSet.nodup_toList _)]
  split
  next => rfl
  next absent =>
    exact (tables.usageOfState_of_not_mem (mt Std.ExtTreeSet.mem_toList.mpr absent)).symm

/-! ## What actors can display -/

/-- An actor uses a name itself, or a state does that the actor can get into. `own` and `shared`
say what actors and states use by themselves. -/
def Uses (own shared : Relation) (actor name : String) : Prop :=
  own.Holds actor name ∨
    ∃ called state, tables.actorStates.Holds actor called ∧
      Reaches tables.stateStates called state ∧ shared.Holds state name

/-- An actor can display an action. -/
inductive Displays (actor : String) : String → Prop where
  /-- It uses the action. -/
  | used {action : String}
      (use : tables.Uses tables.actorActions tables.stateActions actor action) :
      Displays actor action
  /-- It starts with the action. -/
  | initial {action : String} (start : tables.initialActions[actor]? = some action) :
      Displays actor action
  /-- It uses an AI routine that is bound to the action. -/
  | bound {ai action : String} (use : tables.Uses tables.actorAi tables.stateAi actor ai)
      (binding : tables.ai[ai]? = some (some action)) : Displays actor action

theorem mem_actors_iff {actor : String} :
    actor ∈ tables.actors ↔ actor ∈ tables.actorActions ∨ actor ∈ tables.actorAi ∨
      actor ∈ tables.actorStates ∨ actor ∈ tables.initialActions := by
  simp [actors]

variable {tables} in
theorem Uses.mem_actors {own shared : Relation} {actor : String}
    (owner : actor ∈ own → actor ∈ tables.actors)
    (use : tables.Uses own shared actor name) : actor ∈ tables.actors := by
  rcases use with direct | ⟨called, _, call, _⟩
  · exact owner (Relation.mem_of_holds direct)
  · exact tables.mem_actors_iff.mpr (.inr (.inr (.inl (Relation.mem_of_holds call))))

variable {tables} in
theorem Displays.mem_actors {actor action : String} (displays : tables.Displays actor action) :
    actor ∈ tables.actors := by
  cases displays with
  | used use => exact use.mem_actors fun mem => tables.mem_actors_iff.mpr (.inl mem)
  | initial start =>
    have mem : actor ∈ tables.initialActions :=
      Table.mem_iff_exists_getElem?.mpr ⟨action, start⟩
    exact tables.mem_actors_iff.mpr (.inr (.inr (.inr mem)))
  | bound use _ => exact use.mem_actors fun mem => tables.mem_actors_iff.mpr (.inr (.inl mem))

/-- What an actor uses by itself, the action it starts with included. -/
def ownUsage (actor : String) : Usage where
  actions := (tables.actorActions.namesOf actor).insertMany tables.initialActions[actor]?.toList
  ai := tables.actorAi.namesOf actor

theorem mem_usageOfActor_iff (isPart : Usage.IsPart part) {actor : String} :
    name ∈ part (tables.usageOfActor tables.usageOfStates actor) ↔
      name ∈ part (tables.ownUsage actor) ∨
        ∃ called state, tables.actorStates.Holds actor called ∧
          Reaches tables.stateStates called state ∧ name ∈ part (tables.directUsage state) := by
  have unfolded : tables.usageOfActor tables.usageOfStates actor =
      (tables.actorStates.namesOf actor).toList.foldl
        (fun usage state => usage.union (tables.usageOfState state)) (tables.ownUsage actor) := by
    simp only [usageOfActor, getD_usageOfStates]
    rfl
  rw [unfolded, isPart.mem_foldl_union]
  simp only [mem_usageOfState_iff tables isPart, Std.ExtTreeSet.mem_toList]
  refine or_congr_right ⟨?_, ?_⟩
  · rintro ⟨called, call, state, path, used⟩
    exact ⟨called, state, call, path, used⟩
  · rintro ⟨called, state, call, path, used⟩
    exact ⟨called, call, state, path, used⟩

theorem mem_ai_usageOfActor_iff {actor : String} :
    name ∈ (tables.usageOfActor tables.usageOfStates actor).ai ↔
      tables.Uses tables.actorAi tables.stateAi actor name :=
  tables.mem_usageOfActor_iff .ai

theorem mem_actions_usageOfActor_iff {actor : String} :
    name ∈ (tables.usageOfActor tables.usageOfStates actor).actions ↔
      tables.Uses tables.actorActions tables.stateActions actor name ∨
        tables.initialActions[actor]? = some name := by
  rw [tables.mem_usageOfActor_iff .actions, ownUsage, NameSet.mem_insertMany, Option.mem_toList,
    or_right_comm]
  rfl

theorem mem_boundActions_iff {ai : NameSet} :
    name ∈ tables.boundActions ai ↔ ∃ routine ∈ ai, tables.ai[routine]? = some (some name) := by
  simp [boundActions, Option.join_eq_some_iff]

/-! ## Resolution -/

theorem getElem?_actorActions (actor : String) :
    tables.resolve.actorActions[actor]? =
      let usage := tables.usageOfActor tables.usageOfStates actor
      if actor ∈ tables.actors then
        some (usage.actions.insertMany (tables.boundActions usage.ai))
      else none := by
  simp only [resolve, List.map_map, Function.comp_def]
  rw [Table.getElem?_ofList_map (NameSet.nodup_toList _)]
  simp only [Std.ExtTreeSet.mem_toList]

theorem mem_actorActions_iff {actor : String} :
    actor ∈ tables.resolve.actorActions ↔ actor ∈ tables.actors := by
  rw [Std.ExtTreeMap.mem_iff_isSome_getElem?, getElem?_actorActions]
  split <;> simp_all

/-- The set of an actor holds the actions that the actor can display. One that is no actor has no
set and can display nothing. -/
theorem holds_actorActions_iff {actor action : String} :
    Relation.Holds tables.resolve.actorActions actor action ↔ tables.Displays actor action := by
  rw [Relation.Holds, Relation.namesOf, getElem?_actorActions]
  split
  next known =>
    rw [Option.getD_some, NameSet.mem_insertMany, mem_actions_usageOfActor_iff,
      mem_boundActions_iff]
    simp only [mem_ai_usageOfActor_iff]
    constructor
    · rintro ((use | start) | ⟨routine, use, binding⟩)
      · exact .used use
      · exact .initial start
      · exact .bound use binding
    · intro displays
      cases displays with
      | used use => exact .inl (.inl use)
      | initial start => exact .inl (.inr start)
      | bound use binding => exact .inr ⟨_, use, binding⟩
  next unknown =>
    rw [Option.getD_none]
    exact iff_of_false Std.ExtTreeSet.not_mem_empty fun displays => unknown displays.mem_actors

theorem mem_unusedActions_iff {action : String} :
    action ∈ tables.resolve.unusedActions ↔
      action ∈ tables.actions ∧
        ∀ actor, ¬ Relation.Holds tables.resolve.actorActions actor action := by
  have listed : action ∈ tables.resolve.unusedActions ↔ action ∈ tables.actions ∧
      ∀ entry ∈ tables.resolve.actorActions.toList, action ∉ entry.2 := by
    simp [resolve]
  rw [listed]
  refine and_congr_right fun _ => ⟨?_, ?_⟩
  · intro unused actor holds
    obtain ⟨actions, found, mem⟩ := Relation.holds_iff.mp holds
    exact unused (actor, actions) (Std.ExtTreeMap.mem_toList_iff_getElem?_eq_some.mpr found) mem
  · rintro unused ⟨actor, actions⟩ entry mem
    have found := Std.ExtTreeMap.mem_toList_iff_getElem?_eq_some.mp entry
    exact unused actor (Relation.holds_iff.mpr ⟨actions, found, mem⟩)

/-- Resolving gives a set to everything that is named as an actor, the actions it can display and
no others, and an action is unused when it is defined and in no such set. -/
theorem resolve_exact :
    (∀ actor, actor ∈ tables.resolve.actorActions ↔
      actor ∈ tables.actorActions ∨ actor ∈ tables.actorAi ∨ actor ∈ tables.actorStates ∨
        actor ∈ tables.initialActions) ∧
    (∀ actor action, Relation.Holds tables.resolve.actorActions actor action ↔
      tables.Displays actor action) ∧
    ∀ action, action ∈ tables.resolve.unusedActions ↔
      action ∈ tables.actions ∧
        ∀ actor, ¬ Relation.Holds tables.resolve.actorActions actor action := by
  refine ⟨fun actor => ?_, fun actor action => ?_, fun action => ?_⟩
  · rw [mem_actorActions_iff, mem_actors_iff]
  · exact tables.holds_actorActions_iff
  · exact tables.mem_unusedActions_iff

end SymbolTables
end TileCensus.Script
