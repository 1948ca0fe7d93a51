import TileCensus.Proofs.FileUnion
import TileCensus.Proofs.Reachability
import TileCensus.Proofs.TokenPass

/-!
# What is used inside a state

A directive in the token pass belongs to one scope only, and where an actor and a state are open at
once that is the actor. So the actions and AI routines that are named inside a state belong to the
state, and through it to every actor that calls it, as long as no actor is open around them
(`mem_usageOfState_of_directs`). A state that is opened inside an actor keeps nothing for its other
callers: what is named there is the actor's own (`not_forall_mem_usageOfState`).
-/

namespace TileCensus.Script

/-! ## Directives and the tables -/

/-- The token pass over a file comes to a directive and its name while some scopes are open. -/
def Directs (source : Source) (scopes : Scopes) (keyword name : String) : Prop :=
  ∃ line number rest, ⟨scopes, ⟨keyword, line⟩, ⟨name, number⟩ :: rest⟩ ∈ roundsOf source

/-- The link from a scope to what a directive inside it names. Nothing is attributed to events. -/
def directiveLink? (keyword : String) (kind : ScopeKind) : Option Link :=
  match keyword with
  | "action" =>
    match kind with
    | .actor => some .actorAction
    | .state => some .stateAction
    | .event => none
  | "ai" =>
    match kind with
    | .actor => some .actorAi
    | .state => some .stateAi
    | .event => none
  | _ => none

/-- An actor calls a state, itself or through the states it calls. -/
def SymbolTables.Calls (tables : SymbolTables) (actor state : String) : Prop :=
  ∃ called, tables.actorStates.Holds actor called ∧ Reaches tables.stateStates called state

theorem Round.facts_of_directive {scopes : Scopes} {keyword name : String} {owner : Scope}
    {link : Link} (current : scopes.current? = some owner)
    (linked : directiveLink? keyword owner.kind = some link)
    (named : keyword = "action" → Literal.isLiteral name = false) (path : String)
    (line number : Nat) (rest : List Token) :
    Round.facts path ⟨scopes, ⟨keyword, line⟩, ⟨name, number⟩ :: rest⟩ =
      [.uses link owner.name name] := by
  obtain ⟨kind, owner⟩ := owner
  unfold directiveLink? at linked
  split at linked
  next =>
    have action : actionName? name = some name := if_neg (by simp [named rfl])
    rw [Round.facts, Round.clause?_of_directive (.inl rfl)]
    cases kind with
    | event => cases linked
    | _ =>
      cases linked
      simp only [current, Clause.ofDirective?, Option.map_some, Option.getD_some]
      rw [Clause.facts.eq_def]
      simp only [action]
  next =>
    rw [Round.facts, Round.clause?_of_directive (.inr rfl)]
    cases kind with
    | event => cases linked
    | _ =>
      cases linked
      simp only [current, Clause.ofDirective?, Option.map_some, Option.getD_some]
      rw [Clause.facts.eq_def]
  next => cases linked

namespace SymbolTables

variable {sources : List Source} {source : Source} {scopes : Scopes} {link : Link}

/-- What a directive names is related to the scope it belongs to. -/
theorem holds_of_directs (mem : source ∈ sources) {keyword name : String}
    (directs : Directs source scopes keyword name) {owner : Scope}
    (current : scopes.current? = some owner)
    (linked : directiveLink? keyword owner.kind = some link)
    (named : keyword = "action" → Literal.isLiteral name = false) :
    ((ofSources sources).relation link).Holds owner.name name := by
  obtain ⟨line, number, rest, reached⟩ := directs
  refine holds_ofSources_iff.mpr ⟨source, mem, ?_⟩
  rw [facts_ofSource]
  refine List.mem_append_right _ (List.mem_flatMap.mpr ⟨_, reached, ?_⟩)
  rw [Round.facts_of_directive current linked named]
  exact List.mem_singleton_self _

theorem mem_actions_directUsage_iff {tables : SymbolTables} {state name : String} :
    name ∈ (tables.directUsage state).actions ↔
      (tables.relation .stateAction).Holds state name :=
  Iff.rfl

theorem Calls.uses {tables : SymbolTables} {actor state name : String} {shared : Relation}
    (calls : tables.Calls actor state) (used : shared.Holds state name) (own : Relation) :
    tables.Uses own shared actor name := by
  obtain ⟨called, call, path⟩ := calls
  exact .inr ⟨called, state, call, path, used⟩

end SymbolTables

/-! ## Where uses belong -/

theorem Scopes.current?_of_actor {scopes : Scopes} {actor : String}
    (opened : scopes.actor = some actor) : scopes.current? = some ⟨.actor, actor⟩ := by
  unfold current?
  rw [opened]
  rfl

theorem Scopes.current?_of_state {scopes : Scopes} {state : String}
    (outside : scopes.actor = none) (opened : scopes.state = some state) :
    scopes.current? = some ⟨.state, state⟩ := by
  unfold current?
  rw [outside, opened]
  rfl

/-- What is named inside a state and outside all actors belongs to the state and to every actor
that calls it. What is named while an actor is open as well belongs to that actor. -/
theorem mem_usageOfState_of_directs {sources : List Source} {source : Source}
    (mem : source ∈ sources) {scopes : Scopes} {state : String}
    (inState : scopes.state = some state) (name : String) :
    let tables := SymbolTables.ofSources sources
    (scopes.actor = none →
      (Directs source scopes "action" name → Literal.isLiteral name = false →
        name ∈ (tables.usageOfState state).actions ∧
        ∀ actor, tables.Calls actor state →
          Relation.Holds tables.resolve.actorActions actor name) ∧
      (Directs source scopes "ai" name →
        name ∈ (tables.usageOfState state).ai ∧
        ∀ actor, tables.Calls actor state →
          name ∈ (tables.usageOfActor tables.usageOfStates actor).ai ∧
          ∀ action, tables.ai[name]? = some (some action) →
            Relation.Holds tables.resolve.actorActions actor action)) ∧
    ∀ actor, scopes.actor = some actor →
      (Directs source scopes "action" name → Literal.isLiteral name = false →
        Relation.Holds tables.resolve.actorActions actor name) ∧
      (Directs source scopes "ai" name →
        name ∈ (tables.usageOfActor tables.usageOfStates actor).ai) := by
  intro tables
  refine ⟨fun outside => ?_, fun actor inside => ?_⟩
  · -- with no actor around it the state is the current scope, even inside an event
    have current := Scopes.current?_of_state outside inState
    refine ⟨fun directs word => ?_, fun directs => ?_⟩
    · have used : (tables.relation .stateAction).Holds state name :=
        SymbolTables.holds_of_directs mem directs current rfl fun _ => word
      refine ⟨(tables.mem_usageOfState_iff .actions).mpr ⟨state, .refl state, used⟩, ?_⟩
      intro actor calls
      exact tables.holds_actorActions_iff.mpr (.used (calls.uses used _))
    · have used : (tables.relation .stateAi).Holds state name :=
        SymbolTables.holds_of_directs mem directs current rfl nofun
      refine ⟨(tables.mem_usageOfState_iff .ai).mpr ⟨state, .refl state, used⟩, ?_⟩
      intro actor calls
      refine ⟨tables.mem_ai_usageOfActor_iff.mpr (calls.uses used _), ?_⟩
      intro action binding
      exact tables.holds_actorActions_iff.mpr (.bound (calls.uses used _) binding)
  · have current := Scopes.current?_of_actor inside
    refine ⟨fun directs word => ?_, fun directs => ?_⟩
    · have used : (tables.relation .actorAction).Holds actor name :=
        SymbolTables.holds_of_directs mem directs current rfl fun _ => word
      exact tables.holds_actorActions_iff.mpr (.used (.inl used))
    · have used : (tables.relation .actorAi).Holds actor name :=
        SymbolTables.holds_of_directs mem directs current rfl nofun
      exact tables.mem_ai_usageOfActor_iff.mpr (.inl used)

/-- A file with a state that an actor calls. -/
def calledState : Source := ⟨"a.con", "state s\naction X\nends\nactor A\nstate s\nenda\n"⟩

/-- A file with a state that is opened inside an actor. -/
def stateInActor : Source := ⟨"a.con", "actor A\ndefstate s\naction X\nends\nenda\n"⟩

theorem facts_calledState : (Reading.ofSource calledState).facts =
    [.uses .stateAction "s" "X", .heads "A" ⟨"a.con", 4⟩, .uses .actorState "A" "s"] := by
  cbv

/-- The action goes to the actor, and the file ends with all scopes closed. -/
theorem ofSource_stateInActor : Reading.ofSource stateInActor =
    ⟨[.heads "A" ⟨"a.con", 1⟩, .uses .actorAction "A" "X"], none,
      [(1, .opened ⟨.actor, "A"⟩), (2, .opened ⟨.state, "s"⟩),
        (3, .action (some ⟨.actor, "A"⟩) "X" []), (4, .closed ⟨.state, "s"⟩),
        (5, .closed ⟨.actor, "A"⟩)], 8⟩ := by
  cbv

theorem directs_calledState : Directs calledState ⟨none, some "s", none⟩ "action" "X" := by
  have reached : (roundsOf calledState)[1]? = some ⟨⟨none, some "s", none⟩, ⟨"action", 2⟩,
      ⟨"X", 2⟩ :: [⟨"ends", 3⟩, ⟨"actor", 4⟩, ⟨"A", 4⟩, ⟨"state", 5⟩, ⟨"s", 5⟩, ⟨"enda", 6⟩]⟩ := by
    cbv
  exact ⟨_, _, _, List.mem_of_getElem? reached⟩

theorem directs_stateInActor : Directs stateInActor ⟨some "A", some "s", none⟩ "action" "X" := by
  have reached : (roundsOf stateInActor)[2]? = some ⟨⟨some "A", some "s", none⟩, ⟨"action", 3⟩,
      ⟨"X", 3⟩ :: [⟨"ends", 4⟩, ⟨"enda", 5⟩]⟩ := by
    cbv
  exact ⟨_, _, _, List.mem_of_getElem? reached⟩

/-- An action inside a called state belongs to the caller as well, and one inside a state that is
opened inside an actor belongs to that actor. -/
theorem mem_usageOfState_of_directs_calledState :
    ((SymbolTables.ofSources [calledState]).Calls "A" "s" ∧
      "X" ∈ ((SymbolTables.ofSources [calledState]).usageOfState "s").actions ∧
      Relation.Holds (SymbolTables.ofSources [calledState]).resolve.actorActions "A" "X") ∧
      Relation.Holds (SymbolTables.ofSources [stateInActor]).resolve.actorActions "A" "X" := by
  have word : Literal.isLiteral "X" = false := by cbv
  have call : ((SymbolTables.ofSources [calledState]).relation .actorState).Holds "A" "s" := by
    refine SymbolTables.holds_ofSources_iff.mpr ⟨calledState, List.mem_singleton_self _, ?_⟩
    rw [facts_calledState]
    simp
  have calls : (SymbolTables.ofSources [calledState]).Calls "A" "s" := ⟨"s", call, .refl "s"⟩
  have outside := mem_usageOfState_of_directs (List.mem_singleton_self calledState)
    (show Scopes.state ⟨none, some "s", none⟩ = some "s" from rfl) "X"
  have inside := mem_usageOfState_of_directs (List.mem_singleton_self stateInActor)
    (show Scopes.state ⟨some "A", some "s", none⟩ = some "s" from rfl) "X"
  obtain ⟨used, displayed⟩ := (outside.1 rfl).1 directs_calledState word
  exact ⟨⟨calls, used, displayed "A" calls⟩, (inside.2 "A" rfl).1 directs_stateInActor word⟩

/-- Not everything that is named inside a state belongs to it, even where no file breaks the
nesting of scopes. -/
theorem not_forall_mem_usageOfState :
    ¬∀ sources : List Source, (∀ source ∈ sources, (Reading.ofSource source).violation = none) →
      ∀ source ∈ sources, ∀ (scopes : Scopes) (state name : String),
        scopes.state = some state → Directs source scopes "action" name →
        Literal.isLiteral name = false →
        name ∈ ((SymbolTables.ofSources sources).usageOfState state).actions := by
  intro claim
  have sound : ∀ source ∈ [stateInActor], (Reading.ofSource source).violation = none := by
    intro source mem
    obtain rfl := List.mem_singleton.mp mem
    rw [ofSource_stateInActor]
  have word : Literal.isLiteral "X" = false := by cbv
  have used := claim [stateInActor] sound stateInActor (List.mem_singleton_self _)
    ⟨some "A", some "s", none⟩ "s" "X" rfl directs_stateInActor word
  obtain ⟨reached, -, direct⟩ := (SymbolTables.mem_usageOfState_iff _ .actions).mp used
  have related := SymbolTables.mem_actions_directUsage_iff.mp direct
  obtain ⟨source, mem, fact⟩ := SymbolTables.holds_ofSources_iff.mp related
  obtain rfl := List.mem_singleton.mp mem
  rw [ofSource_stateInActor] at fact
  simp at fact

end TileCensus.Script
