import TileCensus.Census
import TileCensus.Proofs.ActorHeaders
import TileCensus.Proofs.DefinitionSteps

/-!
# Where problems are reported

A problem is reported at a line of an input, unless it is one of a name that no line is known for:
an AI routine without a definition or an action that is never used. The law at the end says so of
every census (`census_located`).

Most places are noted where a line is read and used in the same pass. Those of actors and actions
come from the scripts and are used when frames are placed. An action that is placed has the place
of its definition, and an actor has one because every file that says anything of it heads it
somewhere (`SymbolTables.mem_actorOrigins_of_mem_actors`).
-/

namespace TileCensus

open Script Text

/-! ## Lines of sources -/

/-- The number of a line of a text. -/
def Text.IsLine (text : String) (number : Nat) : Prop :=
  1 ≤ number ∧ number ≤ (lines text).length

/-- A location is a line of a source. -/
structure Location.IsIn (location : Location) (source : Source) : Prop where
  file : location.file = source.path
  line : IsLine source.text location.line

/-- The sources of a corpus, whatever they are read for. -/
def Corpus.sources (corpus : Corpus) : List Source :=
  corpus.scripts ++ corpus.instances.map (fun source => ⟨source.path, source.text⟩) ++
    corpus.definitions.toList

theorem Text.isLine_of_mem_numbered {text : String} {line : List Char} {number : Nat}
    (mem : (line, number) ∈ numbered (lines text)) : IsLine text number := by
  obtain ⟨least, found⟩ := List.mk_mem_zipIdx_iff_le_and_getElem?_sub.mp mem
  obtain ⟨inside, -⟩ := List.getElem?_eq_some_iff.mp found
  exact ⟨least, by omega⟩

theorem Script.length_cleanLines (inComment : Bool) (lines : List (List Char)) :
    (cleanLines inComment lines).length = lines.length := by
  induction lines generalizing inComment with
  | nil => rfl
  | cons line lines ih => rw [cleanLines, List.length_cons, List.length_cons, ih]

theorem Script.isLine_of_mem_cleanedText {text : String} {line : List Char} {number : Nat}
    (mem : (line, number) ∈ cleanedText text) : IsLine text number := by
  obtain ⟨least, found⟩ := List.mk_mem_zipIdx_iff_le_and_getElem?_sub.mp mem
  obtain ⟨inside, -⟩ := List.getElem?_eq_some_iff.mp found
  rw [length_cleanLines] at inside
  exact ⟨least, by omega⟩

theorem Script.isLine_of_mem_bodyTokens {text : String} {token : Token}
    (mem : token ∈ bodyTokens text) : IsLine text token.line := by
  obtain ⟨⟨line, number⟩, entry, mem⟩ := List.mem_flatMap.mp mem
  have inside := isLine_of_mem_cleanedText entry
  dsimp only at mem
  split at mem
  next => exact absurd mem List.not_mem_nil
  next =>
    obtain ⟨word, -, rfl⟩ := List.mem_map.mp mem
    exact inside

theorem Definition.isLine_of_mem_tokens {text : String} {token : Token}
    (mem : token ∈ Definition.tokens text) : IsLine text token.line := by
  obtain ⟨⟨line, number⟩, entry, mem⟩ := List.mem_flatMap.mp mem
  obtain ⟨word, -, rfl⟩ := List.mem_map.mp mem
  exact isLine_of_mem_cleanedText entry

/-! ## Places among facts -/

namespace Script

/-- The place that a fact notes. -/
def Fact.origin? : Fact → Option Location
  | defines action | mentions action => some action.origin
  | heads _ origin => some origin
  | _ => none

theorem Header.origin?_of_mem_facts {origin place : Location} {header : Header} {fact : Fact}
    (mem : fact ∈ header.facts origin) (noted : fact.origin? = some place) : place = origin := by
  cases header with
  | action name arguments =>
    obtain rfl := List.mem_singleton.mp mem
    exact (Option.some_inj.mp noted).symm
  | ai name bound =>
    obtain rfl := List.mem_singleton.mp mem
    cases noted
  | actor name initial =>
    rcases List.mem_append.mp mem with mem | mem
    · cases initial with
      | none => cases mem
      | some action =>
        obtain rfl := List.mem_singleton.mp mem
        cases noted
    · obtain rfl := List.mem_singleton.mp mem
      exact (Option.some_inj.mp noted).symm

theorem Clause.origin?_of_mem_facts (origin : Location) (clause : Clause) :
    ∀ fact ∈ clause.facts origin, ∀ place, fact.origin? = some place → place = origin := by
  fun_cases Clause.facts origin clause <;> simp [Fact.origin?, ActionDef.ofArguments]

theorem Round.origin?_of_mem_facts {path : String} {round : Round} {fact : Fact} {place : Location}
    (mem : fact ∈ round.facts path) (noted : fact.origin? = some place) :
    place = ⟨path, round.keyword.line⟩ := by
  unfold Round.facts at mem
  cases made : round.clause? with
  | none =>
    rw [made] at mem
    cases mem
  | some clause =>
    rw [made] at mem
    exact Clause.origin?_of_mem_facts _ clause fact mem place noted

/-- The places that a file notes are lines of it. -/
theorem isIn_of_mem_facts {source : Source} {fact : Fact} {place : Location}
    (mem : fact ∈ (Reading.ofSource source).facts) (noted : fact.origin? = some place) :
    place.IsIn source := by
  rw [facts_ofSource] at mem
  rcases List.mem_append.mp mem with mem | mem
  · obtain ⟨⟨line, number⟩, entry, mem⟩ := List.mem_flatMap.mp mem
    cases header : Header.ofWords? (words line) with
    | none =>
      simp only [header] at mem
      cases mem
    | some header =>
      simp only [header] at mem
      obtain rfl := Header.origin?_of_mem_facts mem noted
      exact ⟨rfl, isLine_of_mem_cleanedText entry⟩
  · obtain ⟨round, reached, mem⟩ := List.mem_flatMap.mp mem
    obtain rfl := Round.origin?_of_mem_facts mem noted
    exact ⟨rfl, isLine_of_mem_bodyTokens (keyword_mem_of_mem_rounds reached)⟩

/-! ## Places in the tables -/

namespace SymbolTables

variable {sources : List Source}

theorem exists_isIn_of_actions {name : String} {action : ActionDef}
    (found : (ofSources sources).actions[name]? = some action) :
    ∃ source ∈ sources, action.origin.IsIn source := by
  obtain ⟨source, mem, fact, said, change, changes, rfl⟩ :=
    exists_fact_of_getElem?_ofSources actions_changedBy rfl found
  refine ⟨source, mem, isIn_of_mem_facts said ?_⟩
  cases fact with
  | defines action | mentions action =>
    cases changes
    rfl
  | _ => cases changes

theorem exists_isIn_of_actorOrigins {actor : String} {origin : Location}
    (found : (ofSources sources).actorOrigins[actor]? = some origin) :
    ∃ source ∈ sources, origin.IsIn source := by
  obtain ⟨source, mem, fact, said, change, changes, rfl⟩ :=
    exists_fact_of_getElem?_ofSources actorOrigins_changedBy rfl found
  refine ⟨source, mem, isIn_of_mem_facts said ?_⟩
  cases fact with
  | heads actor origin =>
    cases changes
    rfl
  | _ => cases changes

end SymbolTables

/-! ## Places of violations -/

theorem Scopes.line?_of_step_error {scopes : Scopes} {token : Token} {tokens : List Token}
    {violation : ScopeError} (outcome : (scopes.step token tokens).outcome = .error violation) :
    violation.line? = some token.line := by
  have attributed := scopes.attributed_step token tokens
  rw [outcome] at attributed
  cases attributed with
  | failed line => exact line

/-- Reading clauses is ended by one of the tokens, or by a scope that is open in the end. -/
theorem line?_of_ending {done : List (Nat × Clause)} {scopes : Scopes} {tokens : List Token}
    {violation : ScopeError}
    (ending : (readClausesFrom done scopes tokens).ending = .error violation) :
    violation.line? = none ∨ ∃ token ∈ tokens, violation.line? = some token.line := by
  -- what a later token does, a token of the whole list does
  have later {token : Token} {rest tokens : List Token} (suffix : rest <:+ tokens)
      (outcome : violation.line? = none ∨ ∃ token ∈ rest, violation.line? = some token.line) :
      violation.line? = none ∨ ∃ other ∈ token :: tokens, violation.line? = some other.line := by
    refine outcome.imp_right fun ⟨other, mem, line⟩ => ?_
    exact ⟨other, List.mem_cons_of_mem _ (suffix.mem mem), line⟩
  fun_induction readClausesFrom done scopes tokens with
  | case1 done scopes =>
    unfold Scopes.finish at ending
    split at ending
    next =>
      cases ending
      exact .inl rfl
    next => cases ending
  | case2 done scopes token tokens step violation outcome =>
    cases ending
    exact .inr ⟨token, List.mem_cons_self, Scopes.line?_of_step_error outcome⟩
  | case3 done scopes token tokens step scope outcome ih =>
    exact later (scopes.step_rest_suffix token tokens) (ih ending)
  | case4 done scopes token tokens step scope outcome ih =>
    exact later (scopes.step_rest_suffix token tokens) (ih ending)
  | case5 done scopes token tokens step caller state outcome ih =>
    exact later (scopes.step_rest_suffix token tokens) (ih ending)
  | case6 done scopes token tokens step outcome directive clauses ih =>
    exact later ((readDirective_suffix ..).trans (scopes.step_rest_suffix token tokens)) (ih ending)

/-- A violation is reported at a line of the file. -/
theorem isIn_of_violation {source : Source} {diagnostic : Diagnostic}
    (found : (Reading.ofSource source).violation = some diagnostic) :
    ∃ location, diagnostic.location = some location ∧ location.IsIn source := by
  unfold Reading.ofSource at found
  dsimp only at found
  split at found
  next violation ending =>
    cases found
    refine ⟨_, rfl, rfl, ?_⟩
    rcases line?_of_ending ending with unclosed | ⟨token, mem, line⟩
    · rw [unclosed, Option.getD_none]
      -- a file without tokens leaves no scope open
      cases body : bodyTokens source.text with
      | nil =>
        rw [body, readClauses, readClausesFrom] at ending
        cases ending
      | cons token tokens =>
        have inside : IsLine source.text token.line :=
          isLine_of_mem_bodyTokens (body ▸ List.mem_cons_self)
        exact ⟨inside.1.trans inside.2, Nat.le_refl _⟩
    · rw [line, Option.getD_some]
      exact isLine_of_mem_bodyTokens mem
  next => cases found

/-- What resolving has to report is of the two kinds that have no place. -/
theorem SymbolTables.kind_of_mem_resolve {tables : SymbolTables} {diagnostic : Diagnostic}
    (mem : diagnostic ∈ tables.resolve.diagnostics) :
    diagnostic.kind = .undefinedAi ∨ diagnostic.kind = .unusedAction := by
  rcases List.mem_append.mp mem with mem | mem
  · obtain ⟨⟨actor, usage⟩, -, mem⟩ := List.mem_flatMap.mp mem
    obtain ⟨name, -, rfl⟩ := List.mem_map.mp mem
    exact .inl rfl
  · obtain ⟨name, -, rfl⟩ := List.mem_map.mp mem
    exact .inr rfl

end Script

/-! ## Places of problems -/

section Problems

variable {maxTiles : Nat} {constants : Constants} {diagnostic : Diagnostic}

theorem location_of_mem_actionFindings {actor name : String} {tile : Int64} {action : ActionDef}
    (mem : .problem diagnostic ∈ actionFindings maxTiles constants actor tile name action) :
    diagnostic.location = some action.origin := by
  unfold actionFindings at mem
  split at mem
  next =>
    obtain ⟨reason, rfl⟩ := Finding.exists_report_of_ofRange (List.mem_singleton.mp mem).symm
    rfl
  next =>
    obtain ⟨operand, -, made⟩ := List.mem_map.mp mem
    cases made
    rfl

/-- A problem of an actor is reported at the origin of the actor or of one of its actions. -/
theorem location_of_mem_actorFindings {tables : SymbolTables} {actor : String} {actions : NameSet}
    (mem : .problem diagnostic ∈ actorFindings maxTiles constants tables actor actions) :
    diagnostic.location = tables.actorOrigins[actor]? ∨
      ∃ (name : String) (action : ActionDef), tables.actions[name]? = some action ∧
        diagnostic.location = some action.origin := by
  rcases List.mem_append.mp mem with mem | mem
  · split at mem
    next =>
      cases List.mem_singleton.mp mem
      exact .inl rfl
    next => cases mem
  · obtain ⟨name, -, mem⟩ := List.mem_flatMap.mp mem
    split at mem
    next =>
      cases List.mem_singleton.mp mem
      exact .inl rfl
    next => cases mem
    next action tile _ definition =>
      exact .inr ⟨name, action, definition, location_of_mem_actionFindings mem⟩

theorem Instance.location_of_occurrenceFinding? {lookup : Lookup} {rule : Rule}
    {location : Location} {line : String} {argument : Option String}
    (found : occurrenceFinding? lookup rule location line argument = some (.problem diagnostic)) :
    diagnostic.location = some location := by
  unfold occurrenceFinding? at found
  split at found
  next =>
    cases found
    rfl
  next =>
    dsimp only at found
    split at found
    next => cases found
    next =>
      split at found
      next =>
        cases found
        rfl
      next =>
        obtain ⟨reason, rfl⟩ := Finding.exists_report_of_ofRange (Option.some_inj.mp found)
        rfl

theorem Instance.isIn_of_mem_sourceFindings {lookup : Lookup} {source : Instance.Source}
    (mem : .problem diagnostic ∈ sourceFindings lookup source) :
    ∃ location, diagnostic.location = some location ∧
      location.IsIn ⟨source.path, source.text⟩ := by
  obtain ⟨⟨line, number⟩, entry, mem⟩ := List.mem_flatMap.mp mem
  obtain ⟨argument, -, found⟩ := List.mem_filterMap.mp mem
  exact ⟨_, location_of_occurrenceFinding? found, rfl, isLine_of_mem_numbered entry⟩

theorem Definition.isIn_of_mem_sourceFindings {source : Source}
    (mem : .problem diagnostic ∈ sourceFindings maxTiles constants source) :
    ∃ location, diagnostic.location = some location ∧ location.IsIn source := by
  obtain ⟨keyword, rest, suffix, finds⟩ := exists_finds_of_mem_sourceFindings mem
  have atToken {token : Token} (mem : token ∈ keyword :: rest)
      (place : diagnostic.location = some ⟨source.path, token.line⟩) :
      ∃ location, diagnostic.location = some location ∧ location.IsIn source :=
    ⟨_, place, rfl, isLine_of_mem_tokens (suffix.mem mem)⟩
  generalize made : Finding.problem diagnostic = finding at finds
  cases finds with
  | missing =>
    cases made
    exact atToken List.mem_cons_self rfl
  | unknown later =>
    cases made
    exact atToken (List.mem_cons_of_mem _ later) rfl
  | unstarted =>
    cases made
    exact atToken List.mem_cons_self rfl
  | tile target n =>
    obtain ⟨reason, rfl⟩ := Finding.exists_report_of_ofRange made.symm
    exact atToken List.mem_cons_self rfl
  | range ranged first last =>
    obtain ⟨reason, rfl⟩ := Finding.exists_report_of_ofRange made.symm
    exact atToken List.mem_cons_self rfl

end Problems

/-! ## Places of diagnostics -/

/-- A diagnostic is reported at a line of one of some sources. -/
def Diagnostic.IsPlacedIn (sources : List Source) (diagnostic : Diagnostic) : Prop :=
  ∃ location, diagnostic.location = some location ∧ ∃ source ∈ sources, location.IsIn source

namespace Corpus

variable {corpus : Corpus} {diagnostic : Diagnostic}

theorem script_mem_sources {source : Source} (mem : source ∈ corpus.scripts) :
    source ∈ corpus.sources :=
  List.mem_append_left _ (List.mem_append_left _ mem)

theorem isPlacedIn_of_mem_frames (mem : .problem diagnostic ∈ corpus.survey.frames) :
    diagnostic.IsPlacedIn corpus.sources := by
  obtain ⟨⟨actor, actions⟩, entry, mem⟩ := List.mem_flatMap.mp mem
  rcases location_of_mem_actorFindings mem with place | ⟨name, action, definition, place⟩
  · have listed : actor ∈ corpus.survey.tables.resolve.actorActions :=
      Table.mem_iff_exists_getElem?.mpr
        ⟨actions, Std.ExtTreeMap.mem_toList_iff_getElem?_eq_some.mp entry⟩
    rw [SymbolTables.mem_actorActions_iff] at listed
    have known := SymbolTables.mem_actorOrigins_of_mem_actors listed
    obtain ⟨origin, found⟩ := Table.mem_iff_exists_getElem?.mp known
    obtain ⟨source, mem, inside⟩ := SymbolTables.exists_isIn_of_actorOrigins found
    exact ⟨origin, place.trans found, source, script_mem_sources mem, inside⟩
  · obtain ⟨source, mem, inside⟩ := SymbolTables.exists_isIn_of_actions definition
    exact ⟨action.origin, place, source, script_mem_sources mem, inside⟩

theorem isPlacedIn_of_mem_instanceFindings
    (mem : .problem diagnostic ∈ corpus.survey.instanceFindings) :
    diagnostic.IsPlacedIn corpus.sources := by
  obtain ⟨entry, scanned, mem⟩ := List.mem_flatMap.mp mem
  obtain ⟨source, listed, rfl⟩ := List.mem_map.mp scanned
  obtain ⟨location, place, inside⟩ := Instance.isIn_of_mem_sourceFindings mem
  refine ⟨location, place, _, ?_, inside⟩
  exact List.mem_append_left _ (List.mem_append_right _ (List.mem_map_of_mem listed))

theorem isPlacedIn_of_mem_definitions {findings : List (Finding Definition.Target)}
    (scanned : corpus.survey.definitions = some findings)
    (mem : .problem diagnostic ∈ findings) : diagnostic.IsPlacedIn corpus.sources := by
  obtain ⟨source, given, rfl⟩ := Option.map_eq_some_iff.mp scanned
  obtain ⟨location, place, inside⟩ := Definition.isIn_of_mem_sourceFindings mem
  exact ⟨location, place, source, List.mem_append_right _ (Option.mem_toList.mpr given), inside⟩

end Corpus

/-- Every diagnostic is reported at a line of an input, unless it is one of an AI routine without a
definition or of an action that is never used. And all that is named as an actor has a place. -/
theorem census_located (corpus : Corpus) :
    (∀ diagnostic ∈ (corpus.census []).diagnostics,
      diagnostic.kind ≠ .undefinedAi → diagnostic.kind ≠ .unusedAction →
        diagnostic.IsPlacedIn corpus.sources) ∧
    let tables := corpus.survey.tables
    ∀ actor, actor ∈ tables.actorActions ∨ actor ∈ tables.actorAi ∨ actor ∈ tables.actorStates ∨
      actor ∈ tables.initialActions → actor ∈ tables.actorOrigins := by
  refine ⟨fun diagnostic mem known used => ?_, fun actor named => ?_⟩
  · simp only [Corpus.census, Survey.census, Survey.diagnostics, List.nil_append, List.mem_append,
      Finding.mem_diagnostics_iff] at mem
    rcases mem with (((mem | mem) | mem) | mem) | mem
    · obtain ⟨reading, read, found⟩ := List.mem_filterMap.mp mem
      obtain ⟨source, listed, rfl⟩ := List.mem_map.mp read
      obtain ⟨location, place, inside⟩ := isIn_of_violation found
      exact ⟨location, place, source, Corpus.script_mem_sources listed, inside⟩
    · rcases SymbolTables.kind_of_mem_resolve mem with kind | kind
      · exact absurd kind known
      · exact absurd kind used
    · exact Corpus.isPlacedIn_of_mem_frames mem
    · exact Corpus.isPlacedIn_of_mem_instanceFindings mem
    · cases scanned : corpus.survey.definitions with
      | none => simp [scanned] at mem
      | some findings =>
        rw [scanned, Option.map_some, Option.getD_some, Finding.mem_diagnostics_iff] at mem
        exact Corpus.isPlacedIn_of_mem_definitions scanned mem
  · exact SymbolTables.mem_actorOrigins_of_mem_actors ((SymbolTables.mem_actors_iff _).mpr named)

/-- An actor that is open where its file ends is reported at the last line of the file, and it has
a place although it is left open. -/
theorem census_located_unclosedActor :
    let corpus : Corpus :=
      ⟨16, ∅, ∅, [SymbolTables.boundActor, SymbolTables.unclosedActor], [], none⟩
    let diagnostic := violationDiagnostic SymbolTables.unclosedActor (.unclosed ⟨.actor, "A"⟩)
    diagnostic ∈ (corpus.census []).diagnostics ∧ diagnostic.kind ≠ .undefinedAi ∧
      diagnostic.kind ≠ .unusedAction ∧ diagnostic.location = some ⟨"b.con", 2⟩ ∧
      diagnostic.IsPlacedIn corpus.sources ∧ "A" ∈ corpus.survey.tables.actorActions ∧
      "A" ∈ corpus.survey.tables.actorOrigins := by
  intro corpus diagnostic
  have reported : diagnostic ∈ (corpus.census []).diagnostics := by
    have found : (Reading.ofSource SymbolTables.unclosedActor).violation = some diagnostic := by
      simp only [Reading.ofSource, SymbolTables.readClauses_unclosedActor]
      rfl
    simp only [Corpus.census, Survey.census, Survey.diagnostics, List.nil_append, List.mem_append]
    refine .inl (.inl (.inl (.inl (List.mem_filterMap.mpr ⟨_, ?_, found⟩))))
    exact List.mem_map_of_mem (List.mem_cons_of_mem _ List.mem_cons_self)
  have uses : "A" ∈ (SymbolTables.ofSources corpus.scripts).relation .actorAction := by
    refine SymbolTables.mem_relation_ofSources_iff.mpr ⟨"X", ?_⟩
    refine SymbolTables.holds_ofSources_iff.mpr ⟨SymbolTables.unclosedActor, ?_, ?_⟩
    · exact List.mem_cons_of_mem _ List.mem_cons_self
    · rw [SymbolTables.facts_unclosedActor]
      exact List.mem_cons_of_mem _ List.mem_cons_self
  obtain ⟨placed, headed⟩ := census_located corpus
  have defined : diagnostic.kind ≠ .undefinedAi := by rintro ⟨⟩
  have used : diagnostic.kind ≠ .unusedAction := by rintro ⟨⟩
  refine ⟨reported, defined, used, by cbv, placed diagnostic reported defined used, uses, ?_⟩
  exact headed "A" (.inl uses)

end TileCensus
