import TileCensus.Census
import TileCensus.Proofs.FileUnion

/-!
# The order of the scripts

A corpus may give its scripts in any order. Which definition of a name counts depends on the order
only where several files declare it, so under `DeclaredInOneFile` the tables of two orders differ
in the origins of actors alone (`ofSources_perm`). Resolving does not look at origins, and placing
frames passes them on to the places of diagnostics and to nothing else. So what is found is the
same up to those places, and the census of the two orders has the same bitmaps and as many
diagnostics of each kind (`census_perm`).
-/

namespace TileCensus

/-! ## Findings but for their places -/

namespace Finding

variable {κ : Type}

/-- The kind of a problem, or the tiles to mark and where. -/
def outline : Finding κ → DiagnosticKind ⊕ κ × Tile.Range
  | problem diagnostic => .inl diagnostic.kind
  | mark target range => .inr (target, range)

variable {first second : List (Finding κ)}

/-- Findings with the same outlines mark the same tiles. -/
theorem bitmap_eq_of_outline [DecidableEq κ] (same : first.map outline = second.map outline)
    (maxTiles : Nat) (target : κ) : bitmap maxTiles target first = bitmap maxTiles target second := by
  have outlined (findings : List (Finding κ)) : ranges target findings =
      (findings.map outline).filterMap fun
        | .inl _ => none
        | .inr (other, range) => if other = target then some range else none := by
    rw [ranges, List.filterMap_map]
    refine List.filterMap_congr fun finding _ => ?_
    cases finding <;> rfl
  rw [bitmap, bitmap, markIn, markIn, outlined, outlined, same]

/-- Findings with the same outlines report as many problems of each kind. -/
theorem countOf_eq_of_outline (same : first.map outline = second.map outline)
    (kind : DiagnosticKind) :
    Diagnostic.countOf kind (diagnostics first) = Diagnostic.countOf kind (diagnostics second) := by
  have outlined (findings : List (Finding κ)) : (diagnostics findings).map (·.kind) =
      (findings.map outline).filterMap Sum.getLeft? := by
    rw [diagnostics, List.map_filterMap, List.filterMap_map]
    refine List.filterMap_congr fun finding _ => ?_
    cases finding <;> rfl
  have counted (findings : List (Finding κ)) : Diagnostic.countOf kind (diagnostics findings) =
      ((findings.map outline).filterMap Sum.getLeft?).countP (· = kind) := by
    rw [← outlined, List.countP_map]
    rfl
  rw [counted, counted, same]

end Finding

open Script Finding

/-- The findings for actor frames depend on the origins of actors only in their places. -/
theorem outline_frameFindings (maxTiles : Nat) (constants : Constants) (tables : SymbolTables)
    (origins : Table String Location) (actorActions : Table String NameSet) :
    (frameFindings maxTiles constants { tables with actorOrigins := origins } actorActions).map
        outline =
      (frameFindings maxTiles constants tables actorActions).map outline := by
  rw [frameFindings, frameFindings, List.map_flatMap, List.map_flatMap]
  refine List.flatMap_congr fun ⟨actor, actions⟩ _ => ?_
  simp only [actorFindings, List.map_append, List.map_flatMap]
  congr 1
  · split <;> rfl
  · refine List.flatMap_congr fun name _ => ?_
    cases tables.actions[name]? with
    | none => rfl
    | some action => cases constants.resolve? actor <;> rfl

namespace Script.SymbolTables

/-! ## Names that are declared in one file -/

section

variable {α : Type} {table : SymbolTables → Table String α} {change? : Fact → Option (Change α)}
  {sources others : List Source}

/-- No name gets an entry in a table from two files. -/
def DeclaredInOneFile (table : SymbolTables → Table String α) (sources : List Source) : Prop :=
  ∀ first ∈ sources, ∀ second ∈ sources, ∀ name, name ∈ table (ofSources [first]) →
    name ∈ table (ofSources [second]) → first = second

/-- A name that is declared in one file has what that file gives it on its own. -/
theorem getElem?_ofSources_iff (changed : ChangedBy table change?) (blank : table empty = ∅)
    (once : DeclaredInOneFile table sources) {name : String} {value : α} :
    (table (ofSources sources))[name]? = some value ↔
      ∃ source ∈ sources, (table (ofSources [source]))[name]? = some value := by
  refine ⟨exists_getElem?_ofSources changed blank, ?_⟩
  rintro ⟨source, mem, alone⟩
  have declared : name ∈ table (ofSources [source]) :=
    Table.mem_iff_exists_getElem?.mpr ⟨value, alone⟩
  have known : name ∈ table (ofSources sources) :=
    (mem_ofSources_iff changed blank).mpr ⟨source, mem, declared⟩
  obtain ⟨other, found⟩ := Table.mem_iff_exists_getElem?.mp known
  -- the entry that counts comes from some file, and that can be no other
  obtain ⟨giver, giver_mem, given⟩ := exists_getElem?_ofSources changed blank found
  have gives : name ∈ table (ofSources [giver]) :=
    Table.mem_iff_exists_getElem?.mpr ⟨other, given⟩
  obtain rfl := once source mem giver giver_mem name declared gives
  rw [found, ← given, alone]

theorem table_ofSources_perm (changed : ChangedBy table change?) (blank : table empty = ∅)
    (once : DeclaredInOneFile table sources) (perm : sources.Perm others) :
    table (ofSources others) = table (ofSources sources) := by
  have once' : DeclaredInOneFile table others := fun first mem second mem' =>
    once first (perm.mem_iff.mpr mem) second (perm.mem_iff.mpr mem')
  refine Std.ExtTreeMap.ext_getElem? fun name => Option.ext fun value => ?_
  rw [getElem?_ofSources_iff changed blank once, getElem?_ofSources_iff changed blank once']
  simp only [perm.mem_iff]

/-- Of two files one of which changes nothing in a table the other may declare what it likes. -/
theorem declaredInOneFile_pair (changed : ChangedBy table change?) (blank : table empty = ∅)
    {first second : Source}
    (silent : (Reading.ofSource second).facts.filterMap change? = []) :
    DeclaredInOneFile table [first, second] := by
  have absent (name : String) : name ∉ table (ofSources [second]) := by
    rw [ofSources_eq, changed.recordAll_eq, List.flatMap_singleton, silent, blank]
    exact Std.ExtTreeMap.not_mem_empty
  intro one mem other mem' name declared again
  rcases List.mem_pair.mp mem with rfl | rfl
  · rcases List.mem_pair.mp mem' with rfl | rfl
    · rfl
    · exact absurd again (absent name)
  · exact absurd declared (absent name)

end

/-- The actions, the AI routines and the initial actions of files are declared in one of them. -/
structure DeclaredOnce (sources : List Source) : Prop where
  actions : DeclaredInOneFile SymbolTables.actions sources
  ai : DeclaredInOneFile SymbolTables.ai sources
  initialActions : DeclaredInOneFile SymbolTables.initialActions sources

theorem relation_withOrigins (tables : SymbolTables) (origins : Table String Location)
    (link : Link) :
    relation { tables with actorOrigins := origins } link = tables.relation link := by
  cases link <;> rfl

/-- Resolving does not look at the origins of actors. -/
theorem resolve_withOrigins (tables : SymbolTables) (origins : Table String Location) :
    resolve { tables with actorOrigins := origins } = tables.resolve := rfl

/-- In another order files that declare nothing twice give the same tables but for the origins. -/
theorem ofSources_perm {sources others : List Source} (once : DeclaredOnce sources)
    (perm : sources.Perm others) :
    ofSources others =
      { ofSources sources with actorOrigins := (ofSources others).actorOrigins } := by
  refine ext_relation (table_ofSources_perm actions_changedBy rfl once.actions perm)
    (table_ofSources_perm ai_changedBy rfl once.ai perm)
    (table_ofSources_perm initialActions_changedBy rfl once.initialActions perm) rfl fun link => ?_
  rw [relation_withOrigins]
  exact relation_ofSources_perm perm link

end Script.SymbolTables

/-! ## The census -/

open SymbolTables

namespace Corpus

variable {corpus : Corpus} {scripts : List Source}

/-- A corpus with its scripts in another order. -/
def withScripts (corpus : Corpus) (scripts : List Source) : Corpus := { corpus with scripts }

theorem instanceFindings_withScripts (corpus : Corpus) (scripts : List Source) :
    (corpus.withScripts scripts).survey.instanceFindings = corpus.survey.instanceFindings := rfl

theorem definitions_withScripts (corpus : Corpus) (scripts : List Source) :
    (corpus.withScripts scripts).survey.definitions = corpus.survey.definitions := rfl

theorem resolution_perm (perm : corpus.scripts.Perm scripts) (once : DeclaredOnce corpus.scripts) :
    (corpus.withScripts scripts).survey.resolution = corpus.survey.resolution := by
  rw [survey_resolution, survey_resolution, withScripts, ofSources_perm once perm,
    resolve_withOrigins]

theorem outline_frames_perm (perm : corpus.scripts.Perm scripts)
    (once : DeclaredOnce corpus.scripts) :
    (corpus.withScripts scripts).survey.frames.map outline = corpus.survey.frames.map outline := by
  rw [survey_frames, survey_frames, resolution_perm perm once, withScripts,
    ofSources_perm once perm, outline_frameFindings]

theorem countOf_violations_perm {sources others : List Source} (perm : sources.Perm others)
    (kind : DiagnosticKind) :
    Diagnostic.countOf kind (violations others) = Diagnostic.countOf kind (violations sources) :=
  (((perm.map _).filterMap _).countP_eq _).symm

theorem countOf_diagnostics_perm (perm : corpus.scripts.Perm scripts)
    (once : DeclaredOnce corpus.scripts) (kind : DiagnosticKind) :
    Diagnostic.countOf kind (corpus.withScripts scripts).survey.diagnostics =
      Diagnostic.countOf kind corpus.survey.diagnostics := by
  have violated : Diagnostic.countOf kind
        ((corpus.withScripts scripts).survey.readings.filterMap (·.violation)) =
      Diagnostic.countOf kind (corpus.survey.readings.filterMap (·.violation)) :=
    countOf_violations_perm perm kind
  have placed := countOf_eq_of_outline (outline_frames_perm perm once) kind
  simp only [Survey.diagnostics, Diagnostic.countOf_append]
  rw [violated, resolution_perm perm once, placed, instanceFindings_withScripts,
    definitions_withScripts]

end Corpus

/-- Where every action, every AI routine and every initial action is declared in one file, the
scripts can be given in any order: the census has the same bitmaps, the same summary and unused
actions, and as many diagnostics of each kind. -/
theorem census_perm {corpus : Corpus} {scripts : List Source}
    (perm : corpus.scripts.Perm scripts) (once : DeclaredOnce corpus.scripts)
    (loading : List Diagnostic) :
    let census := corpus.census loading
    let other := (corpus.withScripts scripts).census loading
    other.actorFrames = census.actorFrames ∧ other.instances = census.instances ∧
      other.definitions = census.definitions ∧ other.summary = census.summary ∧
      other.unusedActions = census.unusedActions ∧
      ∀ kind, Diagnostic.countOf kind other.diagnostics =
        Diagnostic.countOf kind census.diagnostics := by
  intro census other
  have frames : other.actorFrames = census.actorFrames := by
    simp only [census, other, Corpus.census, Survey.census]
    exact bitmap_eq_of_outline (Corpus.outline_frames_perm perm once) corpus.maxTiles ()
  have instances : other.instances = census.instances := by
    simp only [census, other, Corpus.census, Survey.census, Corpus.instanceFindings_withScripts]
    rfl
  have definitions : other.definitions = census.definitions := by
    simp only [census, other, Corpus.census, Survey.census, Corpus.definitions_withScripts]
    rfl
  have summary : other.summary = census.summary := summary_ofSources_perm perm
  have unusedActions : other.unusedActions = census.unusedActions :=
    congrArg Resolution.unusedActions (Corpus.resolution_perm perm once)
  refine ⟨frames, instances, definitions, summary, unusedActions, fun kind => ?_⟩
  simp only [census, other, Corpus.census, Survey.census, Diagnostic.countOf_append]
  rw [Corpus.countOf_diagnostics_perm perm once]

/-- Two files of which one is cut short inside an actor, and which both open it: its origin, at
which an unknown name is reported, depends on their order, but not the counts. -/
theorem census_perm_unclosedActor :
    let corpus : Corpus := ⟨16, ∅, ∅, [boundActor, unclosedActor], [], none⟩
    let census := corpus.census []
    let other := (corpus.withScripts [unclosedActor, boundActor]).census []
    DeclaredOnce corpus.scripts ∧ other.actorFrames = census.actorFrames ∧
      other.summary = census.summary ∧ other.unusedActions = census.unusedActions ∧
      ∀ kind, Diagnostic.countOf kind other.diagnostics =
        Diagnostic.countOf kind census.diagnostics := by
  intro corpus census other
  have once : DeclaredOnce corpus.scripts := by
    refine ⟨declaredInOneFile_pair actions_changedBy rfl ?_,
      declaredInOneFile_pair ai_changedBy rfl ?_,
      declaredInOneFile_pair initialActions_changedBy rfl ?_⟩
    all_goals
      rw [facts_unclosedActor]
      rfl
  obtain ⟨frames, -, -, summary, unused, counts⟩ :=
    census_perm (List.Perm.swap unclosedActor boundActor []) once []
  exact ⟨once, frames, summary, unused, counts⟩

end TileCensus
