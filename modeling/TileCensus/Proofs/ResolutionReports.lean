import TileCensus.Proofs.Reachability

/-!
# What resolving reports

Resolving reports an AI routine that is not known for each actor that can get into it, and an action
that no actor can display. How an actor gets into a routine is of no account, nor is how often: the
reports are listed by the pairs of an actor and a routine that are in `Uses`, in ascending order,
and after them by the unused actions (`diagnostics_resolve_exact`).
-/

namespace TileCensus.Script.SymbolTables

variable (tables : SymbolTables)

/-! ## Unknown AI routines -/

/-- The actors with the unknown AI routines that they can get into. -/
def unknownUses : List (String × String) :=
  tables.actors.toList.flatMap fun actor =>
    (tables.unknownAi (tables.usageOfActor tables.usageOfStates actor).ai).map fun ai => (actor, ai)

theorem mem_unknownAi_iff {used : NameSet} {ai : String} :
    ai ∈ tables.unknownAi used ↔ ai ∈ used ∧ ai ∉ tables.ai := by
  simp [unknownAi]

theorem unknownAi_ascending (used : NameSet) : (tables.unknownAi used).Pairwise (· < ·) :=
  used.toList_ascending.filter _

/-- Something unknown is listed for an actor if it is used at all, directly or by a state. -/
theorem mem_unknownUses_iff {actor ai : String} :
    (actor, ai) ∈ tables.unknownUses ↔
      tables.Uses tables.actorAi tables.stateAi actor ai ∧ ai ∉ tables.ai := by
  have listed : (actor, ai) ∈ tables.unknownUses ↔ actor ∈ tables.actors ∧
      ai ∈ tables.unknownAi (tables.usageOfActor tables.usageOfStates actor).ai := by
    simp [unknownUses]
  rw [listed, mem_unknownAi_iff, mem_ai_usageOfActor_iff]
  apply and_iff_right_of_imp
  rintro ⟨use, -⟩
  exact use.mem_actors fun mem => tables.mem_actors_iff.mpr (.inr (.inl mem))

/-- The pairs come in the order of the actors, and for one actor in that of the routines. -/
theorem unknownUses_ascending : tables.unknownUses.Pairwise (Prod.Lex (· < ·) (· < ·)) := by
  apply List.pairwise_flatMap.mpr
  constructor
  · intro actor _
    apply List.pairwise_map.mpr
    exact (tables.unknownAi_ascending _).imp fun before => .right actor before
  · apply tables.actors.toList_ascending.imp
    intro first second before one mem other mem'
    obtain ⟨ai, -, rfl⟩ := List.mem_map.mp mem
    obtain ⟨ai', -, rfl⟩ := List.mem_map.mp mem'
    exact .left ai ai' before

/-! ## Reports -/

theorem diagnostics_resolve_eq :
    ∃ unused : List String,
      tables.resolve.diagnostics =
        (tables.unknownUses.map fun (actor, ai) => undefinedAi ai actor) ++
          unused.map unusedAction ∧
      unused.Pairwise (· < ·) ∧
      ∀ action, action ∈ unused ↔ action ∈ tables.resolve.unusedActions := by
  refine ⟨tables.actions.keys.filter fun name =>
    !tables.resolve.actorActions.toList.any fun entry => name ∈ entry.2, ?_, ?_, ?_⟩
  · simp only [resolve, unknownUses, List.map_flatMap, List.flatMap_map, List.map_map]
    rfl
  · exact (Table.keys_ascending _).filter _
  · intro action
    simp [resolve]

/-- Resolving reports one unknown AI routine for each actor and routine such that the actor uses the
routine, itself or in a state that it can get into, and the routine is not known; one that is bound
to no action is known. These reports come in the order of the actors and then of the routines. After
them comes one for each action that is defined and that no actor can display, in order, and nothing
else. None of them has a place. -/
theorem diagnostics_resolve_exact :
    ∃ (unknown : List (String × String)) (unused : List String),
      tables.resolve.diagnostics =
        (unknown.map fun (actor, ai) => undefinedAi ai actor) ++ unused.map unusedAction ∧
      unknown.Pairwise (Prod.Lex (· < ·) (· < ·)) ∧
      (∀ actor ai, (actor, ai) ∈ unknown ↔
        tables.Uses tables.actorAi tables.stateAi actor ai ∧ ai ∉ tables.ai) ∧
      unused.Pairwise (· < ·) ∧
      (∀ action, action ∈ unused ↔ action ∈ tables.resolve.unusedActions) ∧
      (∀ action, action ∈ unused ↔
        action ∈ tables.actions ∧ ∀ actor, ¬tables.Displays actor action) ∧
      ∀ diagnostic ∈ tables.resolve.diagnostics, diagnostic.location = none := by
  obtain ⟨unused, reports, ascending, listed⟩ := tables.diagnostics_resolve_eq
  refine ⟨tables.unknownUses, unused, reports, tables.unknownUses_ascending, ?_, ascending, listed,
    ?_, ?_⟩
  · intro actor ai
    exact tables.mem_unknownUses_iff
  · intro action
    rw [listed, mem_unusedActions_iff]
    simp only [holds_actorActions_iff]
  · intro diagnostic mem
    rw [reports] at mem
    rcases List.mem_append.mp mem with mem | mem
    · obtain ⟨⟨actor, ai⟩, -, rfl⟩ := List.mem_map.mp mem
      rfl
    · obtain ⟨action, -, rfl⟩ := List.mem_map.mp mem
      rfl

end TileCensus.Script.SymbolTables
