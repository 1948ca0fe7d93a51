import TileCensus.Proofs.ActorOrigins
import TileCensus.Proofs.FileUnion
import TileCensus.Proofs.Reachability
import TileCensus.Proofs.ScopeRuns

/-!
# Every actor has a header

What a file says of an actor it says in a header line, with the keyword that opens the actor, or
while the actor is open. That an actor which is open in a round of the token pass was opened by an
earlier round of the same file is an invariant of the pass (`actor_headed_of_mem_rounds`). So every
file that says anything of an actor heads it somewhere, also if reading the file stops early, and
all that is named as an actor in the tables has an origin (`mem_actorOrigins_of_mem_actors`).
-/

namespace TileCensus.Script

/-! ## Facts about actors -/

/-- The actor that a fact says something of. -/
def Fact.actor? : Fact → Option String
  | starts actor _ | heads actor _ => some actor
  | uses .actorAction actor _ | uses .actorAi actor _ | uses .actorState actor _ => some actor
  | _ => none

/-- The scope that a clause belongs to. -/
def Clause.owner? : Clause → Option Scope
  | called caller _ => some caller
  | action owner _ _ | ai owner _ _ => owner
  | opened _ | closed _ => none

theorem Header.heads_mem_facts {origin : Location} {header : Header} {fact : Fact} {actor : String}
    (mem : fact ∈ header.facts origin) (about : fact.actor? = some actor) :
    .heads actor origin ∈ header.facts origin := by
  cases header with
  | action name arguments =>
    obtain rfl := List.mem_singleton.mp mem
    cases about
  | ai name bound =>
    obtain rfl := List.mem_singleton.mp mem
    cases about
  | actor name initial =>
    refine List.mem_append_right _ (List.mem_singleton.mpr ?_)
    rcases List.mem_append.mp mem with mem | mem
    · cases initial with
      | none => cases mem
      | some action =>
        obtain rfl := List.mem_singleton.mp mem
        cases about
        rfl
    · obtain rfl := List.mem_singleton.mp mem
      cases about
      rfl

/-- What a clause says of an actor, it says by opening it or inside it. -/
theorem Clause.opened_or_owner?_of_mem_facts (origin : Location) (clause : Clause) :
    ∀ fact ∈ clause.facts origin, ∀ actor, fact.actor? = some actor →
      clause = .opened ⟨.actor, actor⟩ ∨ clause.owner? = some ⟨.actor, actor⟩ := by
  fun_cases Clause.facts origin clause <;> simp [Fact.actor?, Clause.owner?]

theorem Scopes.actor_of_current? {scopes : Scopes} {actor : String}
    (current : scopes.current? = some ⟨.actor, actor⟩) : scopes.actor = some actor := by
  obtain ⟨actor', state, event⟩ := scopes
  cases actor' <;> cases state <;> cases event <;> simp_all [current?]

theorem Scopes.current?_of_called {scopes : Scopes} {token : Token} {tokens : List Token}
    {caller : Scope} {state : String}
    (outcome : (scopes.step token tokens).outcome = .ok (.called caller state)) :
    scopes.current? = some caller := by
  have attributed := scopes.attributed_step token tokens
  rw [outcome] at attributed
  cases attributed with
  | called current => exact current

theorem readDirective_owner? {scopes : Scopes} {token : Token} {tokens : List Token}
    {clause : Clause} (made : (readDirective scopes token tokens).1 = some clause) :
    clause.owner? = scopes.current? := by
  unfold readDirective at made
  split at made
  next =>
    split at made
    next => cases made
    next =>
      unfold Clause.ofDirective? at made
      split at made
      next =>
        cases made
        rfl
      next =>
        cases made
        rfl
      next => cases made
  next => cases made

/-- A clause belongs to the scope that its round stands in. -/
theorem Round.current?_of_clause? {round : Round} {clause : Clause} {owner : Scope}
    (made : round.clause? = some clause) (owned : clause.owner? = some owner) :
    round.scopes.current? = some owner := by
  unfold Round.clause? at made
  split at made
  next => cases made
  next =>
    cases made
    cases owned
  next =>
    cases made
    cases owned
  next caller state outcome =>
    cases made
    cases owned
    exact Scopes.current?_of_called outcome
  next outcome =>
    have same : round.step.scopes = round.scopes :=
      (round.scopes.effect_step round.keyword round.rest).eq_of_isQuiet <| by
        rw [show (round.scopes.step round.keyword round.rest).outcome = _ from outcome]
        exact fun _ => ⟨by rintro ⟨⟩, by rintro ⟨⟩⟩
    rw [readDirective_owner? made, same] at owned
    exact owned

/-- What a round says of an actor, it says by opening it or while it is open. -/
theorem Round.headed_or_opened_of_mem_facts {path : String} {round : Round} {fact : Fact}
    {actor : String} (mem : fact ∈ round.facts path) (about : fact.actor? = some actor) :
    .heads actor ⟨path, round.keyword.line⟩ ∈ round.facts path ∨
      round.scopes.actor = some actor := by
  unfold Round.facts at mem ⊢
  cases made : round.clause? with
  | none =>
    rw [made] at mem
    cases mem
  | some clause =>
    rw [made] at mem
    rcases Clause.opened_or_owner?_of_mem_facts _ clause fact mem actor about with rfl | owned
    · exact .inl (List.mem_singleton_self _)
    · exact .inr (Scopes.actor_of_current? (Round.current?_of_clause? made owned))

/-- An actor that is open after a step was open before it, or the step has opened it. -/
theorem Effect.actor_or_opened {scopes after : Scopes} {outcome : Except ScopeError Transition}
    {actor : String} (effect : Effect scopes outcome after)
    (open_after : after.actor = some actor) :
    scopes.actor = some actor ∨ outcome = .ok (.opened ⟨.actor, actor⟩) := by
  cases effect with
  | @opened kind name closed =>
    cases kind with
    | actor =>
      obtain rfl := Option.some_inj.mp open_after
      exact .inr rfl
    | state => exact .inl open_after
    | event => exact .inl open_after
  | @closed kind name opened =>
    cases kind with
    | actor => cases open_after
    | state => exact .inl open_after
    | event => exact .inl open_after
  | called => exact .inl open_after
  | unchanged => exact .inl open_after
  | failed => exact .inl open_after

theorem Round.heads_mem_facts {path : String} {round : Round} {actor : String}
    (opens : round.step.outcome = .ok (.opened ⟨.actor, actor⟩)) :
    .heads actor ⟨path, round.keyword.line⟩ ∈ round.facts path := by
  unfold Round.facts Round.clause?
  rw [opens]
  exact List.mem_singleton_self _

/-- An actor that is open in a round was open before all rounds, or a round has opened it. -/
theorem actor_headed_of_mem_rounds (path : String) {scopes : Scopes} {tokens : List Token}
    {round : Round} {actor : String} (mem : round ∈ rounds scopes tokens)
    (opened : round.scopes.actor = some actor) :
    scopes.actor = some actor ∨ ∃ opener ∈ rounds scopes tokens,
      .heads actor ⟨path, opener.keyword.line⟩ ∈ opener.facts path := by
  match tokens with
  | [] => simp [rounds] at mem
  | token :: tokens =>
    obtain ⟨rest, suffix, later⟩ := exists_rounds_cons scopes token tokens
    rw [later] at mem ⊢
    rcases List.mem_cons.mp mem with rfl | mem
    · exact .inl opened
    rcases actor_headed_of_mem_rounds path mem opened with after | ⟨opener, reached, heads⟩
    · refine ((scopes.effect_step token tokens).actor_or_opened after).imp_right fun opens => ?_
      exact ⟨_, List.mem_cons_self, Round.heads_mem_facts opens⟩
    · exact .inr ⟨opener, List.mem_cons_of_mem _ reached, heads⟩
termination_by tokens.length
decreasing_by exact Nat.lt_succ_of_le suffix.length_le

/-- A file that says anything of an actor heads it somewhere. -/
theorem exists_heads_of_mem_facts {source : Source} {fact : Fact} {actor : String}
    (mem : fact ∈ (Reading.ofSource source).facts) (about : fact.actor? = some actor) :
    ∃ origin, .heads actor origin ∈ (Reading.ofSource source).facts := by
  rw [facts_ofSource] at mem ⊢
  rcases List.mem_append.mp mem with mem | mem
  · obtain ⟨⟨line, number⟩, entry, mem⟩ := List.mem_flatMap.mp mem
    cases header : Header.ofWords? (words line) with
    | none =>
      simp only [header] at mem
      cases mem
    | some head =>
      simp only [header] at mem
      refine ⟨⟨source.path, number⟩, List.mem_append_left _ (List.mem_flatMap.mpr ?_)⟩
      refine ⟨(line, number), entry, ?_⟩
      simp only [header]
      exact Header.heads_mem_facts mem about
  · obtain ⟨round, reached, mem⟩ := List.mem_flatMap.mp mem
    rcases Round.headed_or_opened_of_mem_facts mem about with heads | opened
    · exact ⟨_, List.mem_append_right _ (List.mem_flatMap.mpr ⟨round, reached, heads⟩)⟩
    · rcases actor_headed_of_mem_rounds source.path reached opened with before | opener
      · cases before
      · obtain ⟨opener, reached, heads⟩ := opener
        exact ⟨_, List.mem_append_right _ (List.mem_flatMap.mpr ⟨opener, reached, heads⟩)⟩

namespace SymbolTables

variable {sources : List Source}

/-- An actor that some file says anything of has an origin. -/
theorem mem_actorOrigins_of_mem_facts {source : Source} {fact : Fact} {actor : String}
    (mem : source ∈ sources) (said : fact ∈ (Reading.ofSource source).facts)
    (about : fact.actor? = some actor) : actor ∈ (ofSources sources).actorOrigins := by
  obtain ⟨origin, heads⟩ := exists_heads_of_mem_facts said about
  rw [ofSources_eq, mem_recordAll_iff actorOrigins_changedBy]
  exact .inr ⟨_, List.mem_flatMap.mpr ⟨source, mem, heads⟩, rfl⟩

theorem mem_actorOrigins_of_mem_relation (link : Link) {actor : String}
    (about : ∀ name, (Fact.uses link actor name).actor? = some actor)
    (mem : actor ∈ (ofSources sources).relation link) :
    actor ∈ (ofSources sources).actorOrigins := by
  obtain ⟨name, holds⟩ := mem_relation_ofSources_iff.mp mem
  obtain ⟨source, mem, said⟩ := holds_ofSources_iff.mp holds
  exact mem_actorOrigins_of_mem_facts mem said (about name)

theorem mem_actorOrigins_of_mem_initialActions {actor : String}
    (mem : actor ∈ (ofSources sources).initialActions) :
    actor ∈ (ofSources sources).actorOrigins := by
  rw [ofSources_eq, mem_recordAll_iff initialActions_changedBy] at mem
  rcases mem with known | ⟨fact, said, named⟩
  · exact absurd known Std.ExtTreeMap.not_mem_empty
  · obtain ⟨source, mem, said⟩ := List.mem_flatMap.mp said
    refine mem_actorOrigins_of_mem_facts mem said ?_
    cases fact with
    | starts name action => exact named
    | _ => cases named

/-- All that is named as an actor has an origin. -/
theorem mem_actorOrigins_of_mem_actors {actor : String} (mem : actor ∈ (ofSources sources).actors) :
    actor ∈ (ofSources sources).actorOrigins := by
  rcases (mem_actors_iff _).mp mem with mem | mem | mem | mem
  · exact mem_actorOrigins_of_mem_relation .actorAction (fun _ => rfl) mem
  · exact mem_actorOrigins_of_mem_relation .actorAi (fun _ => rfl) mem
  · exact mem_actorOrigins_of_mem_relation .actorState (fun _ => rfl) mem
  · exact mem_actorOrigins_of_mem_initialActions mem

end SymbolTables

end TileCensus.Script
