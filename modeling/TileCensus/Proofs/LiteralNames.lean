import TileCensus.Proofs.Precedence
import TileCensus.Proofs.ResolutionReports
import TileCensus.Proofs.TableNames

/-!
# Actions named by literals

A literal in action position means that there is no action, so no action that is used, started with
or bound is named by one. Bare directives keep to this as well, and define nothing under a literal
(`isLiteral_of_mem_bareActions`). A header line that defines an action in full does not look at the
name. The actions named by literals are thus those of the full definitions, and nothing can refer
to them: each one that there is counts as defined and is reported as unused
(`SymbolTables.ofSources_literal`).
-/

namespace TileCensus.Script

open Text

/-! ## Names of definitions -/

variable {source : Source} {name : String}

theorem exists_mem_fullActions_iff :
    (∃ action, (name, action) ∈ fullActions source) ↔
      ∃ line number start rest, (line, number) ∈ cleanedText source.text ∧
        words line = "action" :: name :: start :: rest ∧ Literal.isLiteral start = true := by
  simp only [fullActions, List.mem_filterMap, Prod.exists]
  constructor
  · rintro ⟨action, line, number, cleaned, defined⟩
    unfold fullAction? at defined
    split at defined
    next name' start rest read =>
      rw [Option.ite_none_right_eq_some] at defined
      obtain ⟨literal, same⟩ := defined
      cases same
      exact ⟨line, number, start, rest, cleaned, read, literal⟩
    next => cases defined
  · rintro ⟨line, number, start, rest, cleaned, read, literal⟩
    refine ⟨.ofArguments name (start :: rest) ⟨source.path, number⟩, line, number, cleaned, ?_⟩
    rw [read, fullAction?, if_pos literal]

/-- A bare directive defines nothing under a literal. -/
theorem isLiteral_of_mem_bareActions {action : ActionDef}
    (mem : (name, action) ∈ bareActions source) : Literal.isLiteral name = false := by
  obtain ⟨round, -, mentioned⟩ := List.mem_filterMap.mp mem
  unfold Round.bareAction? at mentioned
  split at mentioned
  next =>
    split at mentioned
    next => cases mentioned
    next token rest _ =>
      rw [Option.ite_none_left_eq_some] at mentioned
      obtain ⟨named, same⟩ := mentioned
      cases same
      simpa using named
  next => cases mentioned

/-! ## Literals in tables -/

namespace SymbolTables

theorem mem_actions_ofSources_iff {sources : List Source} :
    name ∈ (ofSources sources).actions ↔ ∃ source ∈ sources,
      (∃ action, (name, action) ∈ fullActions source) ∨
        ∃ action, (name, action) ∈ bareActions source := by
  rw [← headerEntries_fullAction, ← roundEntries_bareAction]
  exact mem_ofSources_iff_exists_entry actions_changedBy actions_declares rfl

theorem unusedAction_injective : Function.Injective unusedAction := by
  intro first second same
  have printed : toString first = toString second := by simpa [unusedAction] using same
  exact printed

theorem unusedAction_mem_diagnostics_iff {tables : SymbolTables} :
    unusedAction name ∈ tables.resolve.diagnostics ↔ name ∈ tables.resolve.unusedActions := by
  obtain ⟨unused, reports, -, listed⟩ := tables.diagnostics_resolve_eq
  rw [reports, List.mem_append, List.mem_map_of_injective unusedAction_injective, listed]
  refine or_iff_right ?_
  intro mem
  obtain ⟨⟨actor, ai⟩, -, same⟩ := List.mem_map.mp mem
  cases congrArg Diagnostic.kind same

/-- A literal names an action exactly if some header line defines it in full. No actor and no state
refers to it, and no AI routine is bound to it, so no actor can display it: if it names an action at
all, the action is unused and reported. -/
theorem ofSources_literal (sources : List Source) {name : String}
    (literal : Literal.isLiteral name = true) :
    let tables := ofSources sources
    (name ∈ tables.actions ↔ ∃ source ∈ sources, ∃ line number start rest,
      (line, number) ∈ cleanedText source.text ∧
        words line = "action" :: name :: start :: rest ∧ Literal.isLiteral start = true) ∧
    (∀ owner, ¬tables.actorActions.Holds owner name ∧ ¬tables.stateActions.Holds owner name ∧
      tables.initialActions[owner]? ≠ some name ∧ tables.ai[owner]? ≠ some (some name)) ∧
    (∀ actor, ¬Relation.Holds tables.resolve.actorActions actor name) ∧
    (name ∈ tables.resolve.unusedActions ↔ name ∈ tables.actions) ∧
    (unusedAction name ∈ tables.resolve.diagnostics ↔ name ∈ tables.actions) := by
  intro tables
  have formed : tables.WellFormed := .ofSources sources
  have unnamed : ¬IsActionName name := fun named => by simp [named.named] at literal
  have hidden : ∀ actor, ¬Relation.Holds tables.resolve.actorActions actor name := by
    intro actor holds
    exact unnamed (formed.isActionName_of_displays (tables.holds_actorActions_iff.mp holds))
  have unused_iff : name ∈ tables.resolve.unusedActions ↔ name ∈ tables.actions := by
    rw [mem_unusedActions_iff]
    exact and_iff_left hidden
  refine ⟨?_, fun owner => ⟨?_, ?_, ?_, ?_⟩, hidden, unused_iff,
    unusedAction_mem_diagnostics_iff.trans unused_iff⟩
  · rw [mem_actions_ofSources_iff]
    refine exists_congr fun source => and_congr_right fun _ => ?_
    rw [← exists_mem_fullActions_iff]
    refine or_iff_left ?_
    rintro ⟨action, mem⟩
    simp [isLiteral_of_mem_bareActions mem] at literal
  · exact fun holds => unnamed (formed.admits_of_holds .actorAction holds)
  · exact fun holds => unnamed (formed.admits_of_holds .stateAction holds)
  · exact fun start => unnamed (formed.initialActions owner name start).2
  · exact fun binding => unnamed ((formed.ai owner _ binding).2 name rfl)

/-- A file that defines an action under a literal. -/
def numberedAction : Source := ⟨"a.con", "action 5 0\n"⟩

theorem numberedAction_defines : ∃ line number start rest,
    (line, number) ∈ cleanedText numberedAction.text ∧
      words line = "action" :: "5" :: start :: rest ∧ Literal.isLiteral start = true := by
  have cleaned : cleanedText numberedAction.text = [("action 5 0".toList, 1)] := by cbv
  have read : words "action 5 0".toList = ["action", "5", "0"] := by cbv
  exact ⟨_, _, "0", [], cleaned ▸ List.mem_singleton_self _, read, by decide⟩

/-- An action that is named by a number is defined, and reported as one that nobody uses. -/
theorem ofSources_literal_numberedAction :
    Literal.isLiteral "5" = true ∧ "5" ∈ (ofSources [numberedAction]).actions ∧
      unusedAction "5" ∈ (ofSources [numberedAction]).resolve.diagnostics := by
  have literal : Literal.isLiteral "5" = true := by decide
  obtain ⟨defined, -, -, -, reported⟩ := ofSources_literal [numberedAction] literal
  have mem : "5" ∈ (ofSources [numberedAction]).actions :=
    defined.mpr ⟨numberedAction, List.mem_singleton_self _, numberedAction_defines⟩
  exact ⟨literal, mem, reported.mpr mem⟩

/-- Some actions are named by literals. -/
theorem not_forall_isLiteral_eq_false :
    ¬∀ (sources : List Source) (name : String),
      name ∈ (ofSources sources).actions → Literal.isLiteral name = false := by
  intro named
  have mem : "5" ∈ (ofSources [numberedAction]).actions :=
    mem_actions_ofSources_iff.mpr ⟨numberedAction, List.mem_singleton_self _,
      .inl (exists_mem_fullActions_iff.mpr numberedAction_defines)⟩
  have literal : Literal.isLiteral "5" = true := by decide
  rw [named _ _ mem] at literal
  cases literal

end SymbolTables

end TileCensus.Script
