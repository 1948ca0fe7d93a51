import TileCensus.Proofs.Reachability

/-!
# The walk for the usage of a state

What a state uses can be gathered on a walk: a pending state is expanded, which adds what it uses
itself and queues the states that it calls and that were not visited before. `Walk.Runs` says so
turn by turn. Every walk comes to an end (`exists_runs`), and one from a state expands each state
that calls lead to, each of them once, and has gathered the usage of the state in the end
(`usageOfState_exact`).

No state is expanded twice because none is queued twice: a pending state was visited, and stands in
the queue once (`IsQueue`).
-/

namespace TileCensus.Script

/-! ## Turns of a walk -/

/-- Where a walk stands: what it has gathered, the states it has visited, and those that it has yet
to expand. -/
structure Walk where
  usage : Usage
  visited : NameSet
  pending : List String

namespace Walk

/-- The beginning of the walk from a state. -/
def start (state : String) : Walk := ⟨.empty, .ofList [state], [state]⟩

/-- The states that a state calls and that were not visited yet. -/
def fresh (tables : SymbolTables) (visited : NameSet) (state : String) : List String :=
  (tables.stateStates.namesOf state).toList.filter (· ∉ visited)

/-- A walk from where it stands to its end, with the states that it expands, in order. -/
inductive Runs (tables : SymbolTables) : Walk → List String → Walk → Prop where
  /-- Nothing is pending. -/
  | done (usage : Usage) (visited : NameSet) :
      Runs tables ⟨usage, visited, []⟩ [] ⟨usage, visited, []⟩
  /-- The first pending state is expanded. -/
  | expand {usage : Usage} {visited : NameSet} {state : String} {pending states : List String}
      {last : Walk}
      (rest : Runs tables
        { usage := usage.union (tables.directUsage state)
          visited := visited.insertMany (fresh tables visited state)
          pending := pending ++ fresh tables visited state } states last) :
      Runs tables ⟨usage, visited, state :: pending⟩ (state :: states) last

variable {tables : SymbolTables} {walk last : Walk} {states : List String} {state : String}

theorem exists_runs (tables : SymbolTables) (walk : Walk) :
    ∃ states last, Runs tables walk states last := by
  obtain ⟨usage, visited, pending⟩ := walk
  -- the walk takes the turns of the search for what can be reached, which ends
  fun_induction reachFrom tables.stateStates visited pending generalizing usage with
  | case1 visited => exact ⟨[], _, .done usage visited⟩
  | case2 visited state pending fresh ih =>
    obtain ⟨states, last, rest⟩ := ih (usage.union (tables.directUsage state))
    exact ⟨state :: states, last, .expand rest⟩

theorem Runs.visited_eq (runs : Runs tables walk states last) :
    last.visited = reachFrom tables.stateStates walk.visited walk.pending := by
  induction runs with
  | done usage visited => rw [reachFrom]
  | expand rest ih => rw [ih, reachFrom, fresh]

theorem Runs.usage_eq (runs : Runs tables walk states last) :
    last.usage =
      states.foldl (fun usage state => usage.union (tables.directUsage state)) walk.usage := by
  induction runs with
  | done usage visited => rfl
  | expand rest ih => exact ih

/-! ## What is expanded -/

theorem mem_fresh_iff {visited : NameSet} {other : String} :
    other ∈ fresh tables visited state ↔ tables.stateStates.Holds state other ∧ other ∉ visited := by
  simp [fresh, Relation.Holds]

/-- Pending states were visited, and stand in the queue once. -/
structure IsQueue (visited : NameSet) (pending : List String) : Prop where
  nodup : pending.Nodup
  visited : ∀ state ∈ pending, state ∈ visited

theorem isQueue_start (state : String) : IsQueue (start state).visited (start state).pending where
  nodup := List.nodup_cons.mpr ⟨List.not_mem_nil, List.nodup_nil⟩
  visited other mem := by
    obtain rfl := List.mem_singleton.mp mem
    simp [start]

/-- Expanding a state leaves a queue: what is added is new to it. -/
theorem IsQueue.expand {visited : NameSet} {pending : List String}
    (queue : IsQueue visited (state :: pending)) :
    IsQueue (visited.insertMany (fresh tables visited state))
      (pending ++ fresh tables visited state) where
  nodup := by
    refine List.nodup_append.mpr ⟨(List.nodup_cons.mp queue.nodup).2, ?_, ?_⟩
    · exact (NameSet.nodup_toList _).filter _
    · rintro other waiting _ added rfl
      have seen : other ∈ visited := queue.visited other (List.mem_cons_of_mem _ waiting)
      exact (mem_fresh_iff.mp added).2 seen
  visited other mem := by
    rw [NameSet.mem_insertMany]
    rcases List.mem_append.mp mem with waiting | added
    · exact .inl (queue.visited other (List.mem_cons_of_mem _ waiting))
    · exact .inr added

theorem Runs.mem_of_pending (runs : Runs tables walk states last) (mem : state ∈ walk.pending) :
    state ∈ states := by
  induction runs with
  | done usage visited => exact mem
  | expand rest ih =>
    rcases List.mem_cons.mp mem with rfl | waiting
    · exact List.mem_cons_self
    · exact List.mem_cons_of_mem _ (ih (List.mem_append_left _ waiting))

/-- Beside what is pending, a walk expands only what was not visited before. -/
theorem Runs.pending_or_not_visited (runs : Runs tables walk states last) (mem : state ∈ states) :
    state ∈ walk.pending ∨ state ∉ walk.visited := by
  induction runs with
  | done usage visited => exact absurd mem List.not_mem_nil
  | expand rest ih =>
    rcases List.mem_cons.mp mem with rfl | mem
    · exact .inl List.mem_cons_self
    · rcases ih mem with queued | unseen
      · rcases List.mem_append.mp queued with waiting | added
        · exact .inl (List.mem_cons_of_mem _ waiting)
        · exact .inr (mem_fresh_iff.mp added).2
      · right
        intro seen
        exact unseen (NameSet.mem_insertMany.mpr (.inl seen))

theorem Runs.nodup (runs : Runs tables walk states last)
    (queue : IsQueue walk.visited walk.pending) : states.Nodup := by
  induction runs with
  | done usage visited => exact List.nodup_nil
  | @expand usage visited state pending states last rest ih =>
    refine List.nodup_cons.mpr ⟨?_, ih queue.expand⟩
    intro again
    have seen : state ∈ visited := queue.visited state List.mem_cons_self
    rcases rest.pending_or_not_visited again with queued | unseen
    · rcases List.mem_append.mp queued with waiting | added
      · exact (List.nodup_cons.mp queue.nodup).1 waiting
      · exact (mem_fresh_iff.mp added).2 seen
    · exact unseen (NameSet.mem_insertMany.mpr (.inl seen))

/-- All that is visited on a walk is expanded on it. -/
theorem Runs.mem_visited_iff (runs : Runs tables walk states last)
    (queue : IsQueue walk.visited walk.pending) :
    state ∈ last.visited ↔ state ∈ walk.visited ∨ state ∈ states := by
  induction runs with
  | done usage visited => simp
  | @expand usage visited first pending states last rest ih =>
    rw [ih queue.expand, NameSet.mem_insertMany, List.mem_cons]
    constructor
    · rintro ((seen | added) | mem)
      · exact .inl seen
      · exact .inr (.inr (rest.mem_of_pending (List.mem_append_right _ added)))
      · exact .inr (.inr mem)
    · rintro (seen | rfl | mem)
      · exact .inl (.inl seen)
      · exact .inl (.inl (queue.visited _ List.mem_cons_self))
      · exact .inr mem

/-- The walk from a state expands the states that can be reached from it. -/
theorem Runs.mem_iff_reaches {first : String} (runs : Runs tables (start first) states last) :
    state ∈ states ↔ Reaches tables.stateStates first state := by
  have visited : last.visited = reachable tables.stateStates first := runs.visited_eq
  rw [← mem_reachable_iff, ← visited, runs.mem_visited_iff (isQueue_start first)]
  refine ⟨.inr, ?_⟩
  rintro (seen | mem)
  · obtain rfl : first = state := by simpa [start] using seen
    exact runs.mem_of_pending List.mem_cons_self
  · exact mem

/-- The walk from a state gathers what the state uses together with those it can reach. -/
theorem Runs.usage_eq_usageOfState {first : String}
    (runs : Runs tables (start first) states last) : last.usage = tables.usageOfState first := by
  have gathered {part : Usage → NameSet} (isPart : Usage.IsPart part) :
      part last.usage = part (tables.usageOfState first) := by
    apply Std.ExtTreeSet.ext_mem
    intro name
    rw [tables.mem_usageOfState_iff isPart, runs.usage_eq, isPart.mem_foldl_union]
    show name ∈ part Usage.empty ∨ _ ↔ _
    rw [isPart.empty, or_iff_right Std.ExtTreeSet.not_mem_empty]
    simp only [runs.mem_iff_reaches]
  exact Usage.ext (gathered .actions) (gathered .ai)

end Walk

/-! ## The usage of states -/

/-- The usage of a state is what the states use that calls lead to from it, itself included. The
walk that gathers it comes to an end, and then it has expanded each of these states once. In the
table of all states every state has its usage, where one without an entry uses nothing. -/
theorem SymbolTables.usageOfState_exact (tables : SymbolTables) :
    (∀ state, (∃ states last, Walk.Runs tables (.start state) states last) ∧
      ∀ states last, Walk.Runs tables (.start state) states last →
        states.Nodup ∧
          (∀ reached, reached ∈ states ↔ Reaches tables.stateStates state reached) ∧
          last.visited = reachable tables.stateStates state ∧
          last.usage = tables.usageOfState state) ∧
    (∀ state action, action ∈ (tables.usageOfState state).actions ↔
      ∃ reached, Reaches tables.stateStates state reached ∧
        tables.stateActions.Holds reached action) ∧
    (∀ state ai, ai ∈ (tables.usageOfState state).ai ↔
      ∃ reached, Reaches tables.stateStates state reached ∧ tables.stateAi.Holds reached ai) ∧
    ∀ state, tables.usageOfStates[state]?.getD .empty = tables.usageOfState state := by
  refine ⟨?_, ?_, ?_, tables.getD_usageOfStates⟩
  · intro state
    refine ⟨Walk.exists_runs tables (.start state), ?_⟩
    intro states last runs
    refine ⟨runs.nodup (Walk.isQueue_start state), ?_, runs.visited_eq, ?_⟩
    · exact fun reached => runs.mem_iff_reaches
    · exact runs.usage_eq_usageOfState
  · intro state action
    exact tables.mem_usageOfState_iff .actions
  · intro state ai
    exact tables.mem_usageOfState_iff .ai

end TileCensus.Script
