import Mathlib
import TileCensus.Proofs.Recording
import TileCensus.Script.Reading

/-!
# What files add up to

The tables of a corpus are filled file after file, and some of what is recorded looks at what is
there already. Still the files contribute independently. Their relations and the names in their
tables unite, so they are the same for every order of the files (`ofSources_union`); an entry of a
table is always one that some file has on its own (`exists_getElem?_ofSources`). What has been
recorded once is not changed by recording it again, from whatever tables it started
(`recordReadings_twice`).

Tables are compared by what they hold: a table of names by its look-ups, a relation by its owners
and pairs.
-/

namespace TileCensus.Script

/-- The violations that are reported for files, in order. -/
def violations (sources : List Source) : List Diagnostic :=
  (sources.map Reading.ofSource).filterMap (·.violation)

theorem violations_eq (sources : List Source) :
    violations sources = sources.flatMap fun source => violations [source] := by
  induction sources with
  | nil => rfl
  | cons source sources ih =>
    rw [List.flatMap_cons, ← ih, violations, violations, violations, ← List.filterMap_append,
      ← List.map_append, List.singleton_append]

namespace SymbolTables

/-- Symbol tables are their relations and their tables of names. -/
theorem ext_relation {first second : SymbolTables} (actions : first.actions = second.actions)
    (ai : first.ai = second.ai) (initialActions : first.initialActions = second.initialActions)
    (actorOrigins : first.actorOrigins = second.actorOrigins)
    (relations : ∀ link, first.relation link = second.relation link) : first = second := by
  obtain ⟨_, _, _, _, _, _, _, _, _, _⟩ := first
  obtain ⟨_, _, _, _, _, _, _, _, _, _⟩ := second
  have stateActions := relations .stateAction
  have actorActions := relations .actorAction
  have stateAi := relations .stateAi
  have actorAi := relations .actorAi
  have actorStates := relations .actorState
  have stateStates := relations .stateState
  simp only [relation] at *
  subst_vars
  rfl

/-! ## Relations -/

variable {sources others : List Source} {link : Link}

theorem holds_ofSources_iff {owner name : String} :
    ((ofSources sources).relation link).Holds owner name ↔
      ∃ source ∈ sources, .uses link owner name ∈ (Reading.ofSource source).facts := by
  have unrelated : ¬(empty.relation link).Holds owner name := by
    cases link <;> simp [Relation.Holds, Relation.namesOf, empty, relation]
  rw [ofSources, recordReadings, holds_recordAll_iff, or_iff_right unrelated, List.flatMap_map,
    List.mem_flatMap]

theorem mem_relation_ofSources_iff {owner : String} :
    owner ∈ (ofSources sources).relation link ↔
      ∃ name, ((ofSources sources).relation link).Holds owner name := by
  have absent : owner ∉ empty.relation link := by
    cases link <;> exact Std.ExtTreeMap.not_mem_empty
  simp only [holds_ofSources_iff]
  rw [ofSources_eq, mem_relation_recordAll_iff, or_iff_right absent]
  simp only [List.mem_flatMap]

/-- The pairs of a relation are those that the files have on their own. -/
theorem holds_ofSources_iff_single {owner name : String} :
    ((ofSources sources).relation link).Holds owner name ↔
      ∃ source ∈ sources, ((ofSources [source]).relation link).Holds owner name := by
  simp [holds_ofSources_iff]

theorem relation_ofSources_perm (perm : sources.Perm others) (link : Link) :
    (ofSources others).relation link = (ofSources sources).relation link := by
  have pairs (owner name : String) : ((ofSources others).relation link).Holds owner name ↔
      ((ofSources sources).relation link).Holds owner name := by
    simp only [holds_ofSources_iff, perm.mem_iff]
  refine Relation.ext_holds (fun owner => ?_) pairs
  simp only [mem_relation_ofSources_iff, pairs]

/-- Pairs that are recorded a second time are there already. -/
theorem relation_recordAll_twice (tables : SymbolTables) (facts : List Fact) (link : Link) :
    ((tables.recordAll facts).recordAll facts).relation link =
      (tables.recordAll facts).relation link := by
  refine Relation.ext_holds (fun owner => ?_) fun owner name => ?_
  · simp only [mem_relation_recordAll_iff, or_assoc, or_self]
  · simp only [holds_recordAll_iff, or_assoc, or_self]

/-! ## Tables of names -/

section

variable {α : Type} {table : SymbolTables → Table String α} {change? : Fact → Option (Change α)}

/-- The names of a table are those that the files have on their own. -/
theorem mem_ofSources_iff (changed : ChangedBy table change?) (blank : table empty = ∅)
    {name : String} :
    name ∈ table (ofSources sources) ↔ ∃ source ∈ sources, name ∈ table (ofSources [source]) := by
  have absent : name ∉ table empty := blank ▸ Std.ExtTreeMap.not_mem_empty
  simp only [ofSources_eq, mem_recordAll_iff changed, absent, false_or, List.mem_flatMap]
  constructor
  · rintro ⟨fact, ⟨source, mem, said⟩, named⟩
    exact ⟨source, mem, fact, ⟨source, List.mem_singleton_self source, said⟩, named⟩
  · rintro ⟨source, mem, fact, ⟨_, single, said⟩, named⟩
    obtain rfl := List.mem_singleton.mp single
    exact ⟨fact, ⟨_, mem, said⟩, named⟩

theorem mem_ofSources_perm (changed : ChangedBy table change?) (blank : table empty = ∅)
    (perm : sources.Perm others) (name : String) :
    name ∈ table (ofSources others) ↔ name ∈ table (ofSources sources) := by
  refine ((mem_ofSources_iff changed blank).trans ?_).trans (mem_ofSources_iff changed blank).symm
  simp only [perm.mem_iff]

/-- What a name has after some facts, it had before or the facts give it on their own. -/
theorem getElem?_recordAll_cases (changed : ChangedBy table change?) (blank : table empty = ∅)
    {tables : SymbolTables} {facts : List Fact} {name : String} {value : α}
    (found : (table (tables.recordAll facts))[name]? = some value) :
    (table tables)[name]? = some value ∨
      (table (empty.recordAll facts))[name]? = some value := by
  rw [getElem?_recordAll changed] at found ⊢
  rw [blank, Std.ExtTreeMap.getElem?_empty, Option.none_or]
  rcases Option.or_eq_some_iff.mp found with put | ⟨unput, found⟩
  · exact .inr (Option.or_eq_some_iff.mpr (.inl put))
  · rcases Option.or_eq_some_iff.mp found with known | ⟨-, filled⟩
    · exact .inl known
    · exact .inr (Option.or_eq_some_iff.mpr (.inr ⟨unput, filled⟩))

/-- What a name has after some files, it had before or some file gives it on its own. -/
theorem getElem?_recordReadings_cases (changed : ChangedBy table change?) (blank : table empty = ∅)
    {tables : SymbolTables} {name : String} {value : α}
    (found : (table (tables.recordReadings (sources.map Reading.ofSource)))[name]? = some value) :
    (table tables)[name]? = some value ∨
      ∃ source ∈ sources, (table (ofSources [source]))[name]? = some value := by
  rw [recordReadings, List.flatMap_map] at found
  induction sources generalizing tables with
  | nil => exact .inl found
  | cons source sources ih =>
    rw [List.flatMap_cons, recordAll_append] at found
    rcases ih found with before | ⟨other, mem, alone⟩
    · rcases getElem?_recordAll_cases changed blank before with before | alone
      · exact .inl before
      · refine .inr ⟨source, List.mem_cons_self, ?_⟩
        rw [ofSources_eq, List.flatMap_singleton]
        exact alone
    · exact .inr ⟨other, List.mem_cons_of_mem _ mem, alone⟩

/-- What a name has in the tables of a corpus, some file gives it on its own. -/
theorem exists_getElem?_ofSources (changed : ChangedBy table change?) (blank : table empty = ∅)
    {name : String} {value : α} (found : (table (ofSources sources))[name]? = some value) :
    ∃ source ∈ sources, (table (ofSources [source]))[name]? = some value := by
  rcases getElem?_recordReadings_cases changed blank found with before | alone
  · rw [blank, Std.ExtTreeMap.getElem?_empty] at before
    cases before
  · exact alone

/-- What a name has in the tables of a corpus, a fact of some file has set. -/
theorem exists_fact_of_getElem?_ofSources (changed : ChangedBy table change?)
    (blank : table empty = ∅) {name : String} {value : α}
    (found : (table (ofSources sources))[name]? = some value) :
    ∃ source ∈ sources, ∃ fact ∈ (Reading.ofSource source).facts,
      ∃ change, change? fact = some change ∧ change.value = value := by
  rw [ofSources_eq, changed.recordAll_eq, blank] at found
  rcases Change.exists_of_getElem?_foldl_apply found with known | ⟨change, mem, made⟩
  · rw [Std.ExtTreeMap.getElem?_empty] at known
    cases known
  · obtain ⟨fact, said, changes⟩ := List.mem_filterMap.mp mem
    obtain ⟨source, mem, said⟩ := List.mem_flatMap.mp said
    exact ⟨source, mem, fact, said, change, changes, made⟩

end

theorem summary_ofSources_perm (perm : sources.Perm others) :
    (ofSources others).summary = (ofSources sources).summary := by
  have actions := Table.size_eq_of_mem_iff (mem_ofSources_perm actions_changedBy rfl perm)
  have ai := Table.size_eq_of_mem_iff (mem_ofSources_perm ai_changedBy rfl perm)
  have initialActions :=
    Table.size_eq_of_mem_iff (mem_ofSources_perm initialActions_changedBy rfl perm)
  have size (link : Link) : ((ofSources others).relation link).size =
      ((ofSources sources).relation link).size := by
    rw [relation_ofSources_perm perm]
  unfold summary
  rw [actions, ai, initialActions]
  congr 1
  · exact size .stateAction
  · exact size .stateAi
  · exact size .actorAction
  · exact size .actorState
  · exact size .actorAi
  · exact size .stateState

/-! ## Laws of whole corpora -/

/-- The relations of a corpus and the names in its tables are the unions of those that its files
have on their own, and its violations are theirs one after the other. So the relations, the names
and the summary are the same in every order of the files. -/
theorem ofSources_union (sources : List Source) :
    let tables := ofSources sources
    (∀ link owner name, (tables.relation link).Holds owner name ↔
      ∃ source ∈ sources, ((ofSources [source]).relation link).Holds owner name) ∧
    (∀ name,
      (name ∈ tables.actions ↔ ∃ source ∈ sources, name ∈ (ofSources [source]).actions) ∧
      (name ∈ tables.ai ↔ ∃ source ∈ sources, name ∈ (ofSources [source]).ai) ∧
      (name ∈ tables.initialActions ↔
        ∃ source ∈ sources, name ∈ (ofSources [source]).initialActions) ∧
      (name ∈ tables.actorOrigins ↔
        ∃ source ∈ sources, name ∈ (ofSources [source]).actorOrigins)) ∧
    violations sources = (sources.flatMap fun source => violations [source]) ∧
    ∀ others, sources.Perm others →
      (∀ link, (ofSources others).relation link = tables.relation link) ∧
      (ofSources others).actions.keys = tables.actions.keys ∧
      (ofSources others).ai.keys = tables.ai.keys ∧
      (ofSources others).initialActions.keys = tables.initialActions.keys ∧
      (ofSources others).actorOrigins.keys = tables.actorOrigins.keys ∧
      (ofSources others).summary = tables.summary := by
  intro tables
  refine ⟨fun link owner name => holds_ofSources_iff_single, fun name => ⟨?_, ?_, ?_, ?_⟩,
    violations_eq sources, fun others perm => ?_⟩
  · exact mem_ofSources_iff actions_changedBy rfl
  · exact mem_ofSources_iff ai_changedBy rfl
  · exact mem_ofSources_iff initialActions_changedBy rfl
  · exact mem_ofSources_iff actorOrigins_changedBy rfl
  · have actions := mem_ofSources_perm actions_changedBy rfl perm
    have ai := mem_ofSources_perm ai_changedBy rfl perm
    have initialActions := mem_ofSources_perm initialActions_changedBy rfl perm
    have actorOrigins := mem_ofSources_perm actorOrigins_changedBy rfl perm
    exact ⟨relation_ofSources_perm perm, Table.keys_eq_of_mem_iff actions,
      Table.keys_eq_of_mem_iff ai, Table.keys_eq_of_mem_iff initialActions,
      Table.keys_eq_of_mem_iff actorOrigins, summary_ofSources_perm perm⟩

/-- A file that gives an actor its initial action. -/
def boundActor : Source := ⟨"a.con", "actor A 1 X\nenda\n"⟩

/-- A file that ends inside the actor that it opens. -/
def unclosedActor : Source := ⟨"b.con", "actor A\naction X\n"⟩

theorem readClauses_unclosedActor : readClauses (bodyTokens unclosedActor.text) =
    ⟨[(1, .opened ⟨.actor, "A"⟩), (2, .action (some ⟨.actor, "A"⟩) "X" [])],
      .error (.unclosed ⟨.actor, "A"⟩)⟩ := by
  cbv

theorem facts_unclosedActor : (Reading.ofSource unclosedActor).facts =
    [.heads "A" ⟨"b.con", 1⟩, .uses .actorAction "A" "X"] := by
  have headers : headerFacts unclosedActor = [] := by cbv
  simp only [Reading.ofSource, headers, readClauses_unclosedActor]
  rfl

/-- A file that ends inside an actor adds its uses to those of a file before it and to those of a
file after it. -/
theorem ofSources_union_unclosedActor :
    let tables := ofSources [boundActor, unclosedActor]
    let swapped := ofSources [unclosedActor, boundActor]
    (tables.relation .actorAction).Holds "A" "X" ∧
      swapped.relation .actorAction = tables.relation .actorAction ∧
      swapped.actorOrigins.keys = tables.actorOrigins.keys ∧ swapped.summary = tables.summary := by
  intro tables swapped
  obtain ⟨relations, -, -, order⟩ := ofSources_union [boundActor, unclosedActor]
  obtain ⟨same, -, -, -, origins, summary⟩ := order _ (List.Perm.swap unclosedActor boundActor [])
  refine ⟨(relations _ _ _).mpr ⟨unclosedActor, by simp, ?_⟩, same _, origins, summary⟩
  refine holds_ofSources_iff.mpr ⟨unclosedActor, List.mem_singleton_self _, ?_⟩
  rw [facts_unclosedActor]
  simp

/-- Reading files again into the tables that they have been read into teaches nothing. -/
theorem recordReadings_twice (tables : SymbolTables) (sources : List Source) :
    let readings := sources.map Reading.ofSource
    (tables.recordReadings readings).recordReadings readings =
      tables.recordReadings readings := by
  intro readings
  unfold recordReadings
  generalize readings.flatMap (·.facts) = facts
  refine ext_relation (actions_changedBy.recordAll_twice tables facts)
    (ai_changedBy.recordAll_twice tables facts)
    (initialActions_changedBy.recordAll_twice tables facts)
    (actorOrigins_changedBy.recordAll_twice tables facts) fun link => ?_
  exact relation_recordAll_twice tables facts link

end SymbolTables
end TileCensus.Script
