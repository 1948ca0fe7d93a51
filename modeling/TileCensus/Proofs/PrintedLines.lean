import TileCensus.Proofs.LineTexts
import TileCensus.Proofs.Locations
import TileCensus.Report

/-!
# Printed diagnostics by lines

The printed diagnostics of a census can be read back line by line: they are the diagnostics, in
order, and then the totals of the kinds that occur, which are those in the report
(`census_printed`). A path is the only thing that could break a line, so the paths of the inputs are
assumed not to.

All else that a diagnostic is told with are names of the symbol tables, tokens, numbers and cleaned
lines. For each pass there is a lemma which says that its messages fit a line, and what is printed
of a census is put together from these.
-/

namespace TileCensus

open Script Text Tile

/-! ## Messages -/

theorem Tile.RangeError.fitsLine_message (reason : RangeError) : FitsLine reason.message := by
  have number (n : Int64) : FitsLine (toString n.toInt) := (unblanked_int n.toInt).fitsLine
  cases reason with
  | outOfRange start stop maxTiles =>
    refine .append (.append (.append (.append (.append ?_ (number start)) ?_) (number stop)) ?_)
      (unblanked_nat maxTiles).fitsLine
    all_goals decide
  | negativeLength start stop =>
    refine .append (.append (.append (.append ?_ (number start)) ?_) (number stop)) ?_
    all_goals decide
  | overflow tile startFrame frameCount viewType =>
    refine .append (.append (.append (.append (.append (.append (.append (.append ?_
      (number frameCount)) ?_) (number viewType)) ?_) (number tile)) ?_) (number startFrame)) ?_
    all_goals decide

namespace Script

theorem ScopeError.fitsLine_message {violation : ScopeError}
    (named : ∀ name ∈ violation.names, IsWord name) : FitsLine violation.message := by
  have label (kind : ScopeKind) : FitsLine kind.label := by cases kind <;> decide
  have fits {name : String} (mem : name ∈ violation.names) : FitsLine name :=
    (named name mem).unblanked.fitsLine
  cases violation with
  | alreadyOpen line kind opened name =>
    have first : FitsLine opened := fits List.mem_cons_self
    have second : FitsLine name := fits (List.mem_cons_of_mem _ List.mem_cons_self)
    refine .append (.append (.append (.append (.append (.append (.append (.append ?_
      (label kind)) ?_) second) ?_) (label kind)) ?_) first) ?_
    all_goals decide
  | notOpen line kind keyword =>
    refine .append (.append (.append ?_ (fits List.mem_cons_self)) ?_) (label kind)
    all_goals decide
  | missingName line keyword =>
    refine .append (.append ?_ (fits List.mem_cons_self)) ?_
    all_goals decide
  | unclosed scope =>
    refine .append (.append (.append (label scope.kind) ?_) (fits List.mem_cons_self)) ?_
    all_goals decide

/-- A violation is told with words of its file. -/
theorem fitsLine_of_violation {source : Source} {diagnostic : Diagnostic}
    (found : (Reading.ofSource source).violation = some diagnostic) :
    FitsLine diagnostic.message := by
  unfold Reading.ofSource at found
  dsimp only at found
  split at found
  next violation ending =>
    cases found
    have told : FitsLine violation.message :=
      ScopeError.fitsLine_message ((isWord_readClauses source.text).2 violation ending)
    unfold violationDiagnostic
    split
    next => exact told
    next => exact told.append (by decide)
  next => cases found

namespace SymbolTables

variable {tables : SymbolTables} {actor : String} {diagnostic : Diagnostic}

theorem WellFormed.isWord_of_mem_relation (formed : tables.WellFormed) (link : Link)
    {owner : String} (mem : owner ∈ tables.relation link) : IsWord owner := by
  obtain ⟨names, found⟩ := Table.mem_iff_exists_getElem?.mp mem
  exact (formed.relations link owner names found).1

theorem WellFormed.isWord_of_mem_actors (formed : tables.WellFormed)
    (mem : actor ∈ tables.actors) : IsWord actor := by
  rcases tables.mem_actors_iff.mp mem with mem | mem | mem | mem
  · exact formed.isWord_of_mem_relation .actorAction mem
  · exact formed.isWord_of_mem_relation .actorAi mem
  · exact formed.isWord_of_mem_relation .actorState mem
  · obtain ⟨action, found⟩ := Table.mem_iff_exists_getElem?.mp mem
    exact (formed.initialActions actor action found).1

theorem WellFormed.isWord_of_uses (formed : tables.WellFormed) (own shared : Link) {name : String}
    (use : tables.Uses (tables.relation own) (tables.relation shared) actor name) :
    IsWord name := by
  rcases use with direct | ⟨_, _, -, -, used⟩
  · exact (formed.admits_of_holds own direct).isWord
  · exact (formed.admits_of_holds shared used).isWord

theorem WellFormed.fitsLine_of_mem_resolve (formed : tables.WellFormed)
    (mem : diagnostic ∈ tables.resolve.diagnostics) :
    FitsLine diagnostic.message ∧ diagnostic.location = none := by
  rcases List.mem_append.mp mem with mem | mem
  · obtain ⟨⟨actor, usage⟩, resolved, mem⟩ := List.mem_flatMap.mp mem
    obtain ⟨actor', listed, same⟩ := List.mem_map.mp resolved
    cases same
    obtain ⟨name, unknown, rfl⟩ := List.mem_map.mp mem
    have user : IsWord actor := formed.isWord_of_mem_actors (Std.ExtTreeSet.mem_toList.mp listed)
    have used : IsWord name := formed.isWord_of_uses .actorAi .stateAi
      (tables.mem_ai_usageOfActor_iff.mp
        (Std.ExtTreeSet.mem_toList.mp (List.mem_of_mem_filter unknown)))
    refine ⟨.append (.append (.append (.append ?_ used.unblanked.fitsLine) ?_)
      user.unblanked.fitsLine) ?_, rfl⟩
    all_goals decide
  · obtain ⟨name, unused, rfl⟩ := List.mem_map.mp mem
    have listed : name ∈ tables.actions :=
      Std.ExtTreeMap.mem_keys.mp (List.mem_of_mem_filter unused)
    obtain ⟨action, found⟩ := Table.mem_iff_exists_getElem?.mp listed
    obtain ⟨rfl, worded⟩ := formed.actions name action found
    refine ⟨.append (.append ?_ worded.name.unblanked.fitsLine) ?_, rfl⟩
    all_goals decide

end SymbolTables
end Script

section Frames

variable {maxTiles : Nat} {constants : Constants} {diagnostic : Diagnostic}

theorem ActionDef.IsWorded.fitsLine_operand {action : ActionDef} (worded : action.IsWorded)
    {operand : Operand} (mem : operand ∈ action.operands) : FitsLine operand.text := by
  cases operand with
  | literal value => exact (unblanked_int value.toInt).fitsLine
  | symbol name => exact (worded.operands name mem).unblanked.fitsLine

theorem fitsLine_of_mem_actionFindings {actor name : String} {tile : Int64} {action : ActionDef}
    (user : IsWord actor) (used : IsWord name) (worded : action.IsWorded)
    (mem : .problem diagnostic ∈ actionFindings maxTiles constants actor tile name action) :
    FitsLine diagnostic.message := by
  have actorFits : FitsLine actor := user.unblanked.fitsLine
  unfold actionFindings at mem
  split at mem
  next =>
    obtain ⟨reason, rfl⟩ := Finding.exists_report_of_ofRange (List.mem_singleton.mp mem).symm
    refine .append (.append (.append (.append (.append ?_ used.unblanked.fitsLine) ?_) actorFits)
      ?_) reason.fitsLine_message
    all_goals decide
  next =>
    obtain ⟨operand, unknown, made⟩ := List.mem_map.mp mem
    cases made
    refine .append (.append (.append (.append (.append (.append ?_
      (worded.fitsLine_operand (List.mem_of_mem_filter unknown))) ?_)
      worded.name.unblanked.fitsLine) ?_) actorFits) ?_
    all_goals decide

theorem fitsLine_of_mem_frames {tables : SymbolTables} (formed : tables.WellFormed)
    (mem : .problem diagnostic ∈
      frameFindings maxTiles constants tables tables.resolve.actorActions) :
    FitsLine diagnostic.message := by
  obtain ⟨⟨actor, actions⟩, entry, mem⟩ := List.mem_flatMap.mp mem
  have resolved : tables.resolve.actorActions[actor]? = some actions :=
    Std.ExtTreeMap.mem_toList_iff_getElem?_eq_some.mp entry
  have user : IsWord actor := by
    refine formed.isWord_of_mem_actors (tables.mem_actorActions_iff.mp ?_)
    exact Table.mem_iff_exists_getElem?.mpr ⟨actions, resolved⟩
  rcases List.mem_append.mp mem with mem | mem
  · split at mem
    next =>
      cases List.mem_singleton.mp mem
      refine .append (.append ?_ user.unblanked.fitsLine) ?_
      all_goals decide
    next => cases mem
  · obtain ⟨name, listed, mem⟩ := List.mem_flatMap.mp mem
    have used : IsWord name := (formed.isActionName_of_displays
      (tables.holds_actorActions_iff.mp
        (Relation.holds_iff.mpr ⟨actions, resolved, Std.ExtTreeSet.mem_toList.mp listed⟩))).word
    split at mem
    next =>
      cases List.mem_singleton.mp mem
      refine .append (.append (.append (.append ?_ used.unblanked.fitsLine) ?_)
        user.unblanked.fitsLine) ?_
      all_goals decide
    next => cases mem
    next action tile _ definition =>
      exact fitsLine_of_mem_actionFindings user used (formed.actions name action definition).2 mem

end Frames

theorem Instance.fitsLine_of_mem_sourceFindings {lookup : Lookup} {source : Instance.Source}
    {diagnostic : Diagnostic} (mem : .problem diagnostic ∈ sourceFindings lookup source) :
    FitsLine diagnostic.message := by
  obtain ⟨⟨line, number⟩, entry, mem⟩ := List.mem_flatMap.mp mem
  obtain ⟨argument, read, found⟩ := List.mem_filterMap.mp mem
  have cleaned : FitsLine (String.ofList (clean line)) :=
    fitsLine_clean (not_mem_of_mem_lines (List.fst_mem_of_mem_zipIdx entry))
  unfold occurrenceFinding? at found
  split at found
  next =>
    cases found
    refine .append (.append (.append ?_ (unblanked_nat source.rule.offset).fitsLine) ?_) cleaned
    all_goals decide
  next token =>
    have named : FitsLine (stripIndex token) := by
      obtain ⟨⟨keyword, position⟩, -, taken⟩ := List.mem_filterMap.mp read
      dsimp only at taken
      split at taken
      next =>
        obtain ⟨field, listed, rfl⟩ :=
          List.mem_map.mp (List.mem_of_getElem? (Option.some_inj.mp taken))
        exact (unblanked_stripIndex (unblanked_of_mem_fields listed)).fitsLine
      next => cases taken
    dsimp only at found
    split at found
    next => cases found
    next =>
      split at found
      next =>
        cases found
        refine .append (.append (.append ?_ named) ?_) cleaned
        all_goals decide
      next =>
        obtain ⟨reason, rfl⟩ := Finding.exists_report_of_ofRange (Option.some_inj.mp found)
        refine .append (.append (.append ?_ named) ?_) reason.fitsLine_message
        all_goals decide

theorem Definition.fitsLine_of_mem_sourceFindings {maxTiles : Nat} {constants : Constants}
    {source : Source} {diagnostic : Diagnostic}
    (mem : .problem diagnostic ∈ sourceFindings maxTiles constants source) :
    FitsLine diagnostic.message := by
  obtain ⟨keyword, rest, suffix, finds⟩ := exists_finds_of_mem_sourceFindings mem
  have fits {token : Token} (mem : token ∈ keyword :: rest) : FitsLine token.word :=
    (unblanked_of_mem_tokens (suffix.mem mem)).fitsLine
  have ranged (reason : RangeError) :
      FitsLine (recordOutOfRange ⟨source.path, maxTiles, constants⟩ keyword reason).message := by
    exact .append (.append (fits List.mem_cons_self) (by decide)) reason.fitsLine_message
  generalize made : Finding.problem diagnostic = finding at finds
  cases finds with
  | missing =>
    cases made
    refine .append (.append ?_ (fits List.mem_cons_self)) ?_
    all_goals decide
  | unknown later =>
    cases made
    refine .append (.append (.append (.append ?_ (fits (List.mem_cons_of_mem _ later))) ?_)
      (fits List.mem_cons_self)) ?_
    all_goals decide
  | unstarted =>
    cases made
    exact (show FitsLine "tile1 without a preceding tile0" by decide)
  | tile target n =>
    obtain ⟨reason, rfl⟩ := Finding.exists_report_of_ofRange made.symm
    exact ranged reason
  | range _ first last =>
    obtain ⟨reason, rfl⟩ := Finding.exists_report_of_ofRange made.symm
    exact ranged reason

/-! ## The printed lines of a census -/

theorem DiagnosticKind.fitsLine_label (kind : DiagnosticKind) : FitsLine kind.label := by
  cases kind <;> decide

theorem Survey.mem_diagnostics {survey : Survey} {diagnostic : Diagnostic}
    (mem : diagnostic ∈ survey.diagnostics) :
    (∃ reading ∈ survey.readings, reading.violation = some diagnostic) ∨
      diagnostic ∈ survey.resolution.diagnostics ∨ .problem diagnostic ∈ survey.frames ∨
      .problem diagnostic ∈ survey.instanceFindings ∨
      ∃ findings, survey.definitions = some findings ∧ .problem diagnostic ∈ findings := by
  simp only [diagnostics, List.mem_append, Finding.mem_diagnostics_iff, List.mem_filterMap] at mem
  rcases mem with (((violation | resolved) | frame) | occurrence) | record
  · exact .inl violation
  · exact .inr (.inl resolved)
  · exact .inr (.inr (.inl frame))
  · exact .inr (.inr (.inr (.inl occurrence)))
  · cases scanned : survey.definitions with
    | none => simp [scanned] at record
    | some findings =>
      rw [scanned, Option.map_some, Option.getD_some, Finding.mem_diagnostics_iff] at record
      exact .inr (.inr (.inr (.inr ⟨findings, rfl, record⟩)))

/-- A message that fits a line fits one after its kind and its place. -/
theorem Diagnostic.fitsLine_text {diagnostic : Diagnostic} (told : FitsLine diagnostic.message)
    (placed : ∀ location, diagnostic.location = some location → '\n' ∉ location.file.toList) :
    FitsLine diagnostic.text := by
  have label := diagnostic.kind.fitsLine_label
  unfold text
  split
  next location place =>
    have here : FitsLine (location.file ++ ":") := by
      refine ⟨?_, ?_⟩
      · simpa using placed location place
      · simp
    refine .append (.append (.append (.append (here.append ?_) ?_) label) ?_) told
    · exact (unblanked_nat location.line).fitsLine
    all_goals decide
  next => exact .append (.append label (by decide)) told

namespace Diagnostic

/-- The kinds that occur, in their order. -/
def kinds (diagnostics : List Diagnostic) : List DiagnosticKind :=
  DiagnosticKind.all.filter fun kind => kind ∈ diagnostics.map Diagnostic.kind

variable (diagnostics : List Diagnostic)

theorem mem_kinds_iff {kind : DiagnosticKind} :
    kind ∈ kinds diagnostics ↔ ∃ diagnostic ∈ diagnostics, diagnostic.kind = kind := by
  simp [kinds, DiagnosticKind.mem_all]

theorem countOf_eq_count (kind : DiagnosticKind) :
    countOf kind diagnostics = (diagnostics.map Diagnostic.kind).count kind := by
  rw [countOf, List.count, List.countP_map]
  rfl

theorem counts_eq :
    counts diagnostics = (kinds diagnostics).map fun kind => (kind, countOf kind diagnostics) := by
  rw [counts, List.filter_map, kinds]
  congr 1
  refine List.filter_congr fun kind _ => ?_
  rw [Function.comp_apply, countOf_eq_count, decide_eq_decide]
  exact Nat.pos_iff_ne_zero.symm.trans List.count_pos_iff

/-- The totals add up, since every diagnostic is counted under its own kind. -/
theorem sum_countOf :
    ((kinds diagnostics).map fun kind => countOf kind diagnostics).sum = diagnostics.length := by
  have perm : (kinds diagnostics).Perm (diagnostics.map Diagnostic.kind).dedup := by
    refine (List.perm_ext_iff_of_nodup ?_ (List.nodup_dedup _)).mpr fun kind => ?_
    · exact List.Nodup.filter _ (by decide)
    · rw [mem_kinds_iff, List.mem_dedup, List.mem_map]
  simp only [countOf_eq_count]
  rw [(perm.map _).sum_eq, List.sum_map_count_dedup_eq_length, List.length_map]

end Diagnostic

/-- The value of a member of an object. -/
def Json.member? (name : String) : Json → Option Json
  | object members => members.lookup name
  | _ => none

theorem lookup_map_of_injective {α β : Type} [DecidableEq α] {name : α → String}
    (distinct : Function.Injective name) (value : α → β) (items : List α) (item : α) :
    (items.map fun item => (name item, value item)).lookup (name item) =
      if item ∈ items then some (value item) else none := by
  induction items with
  | nil => simp
  | cons first items ih =>
    rw [List.map_cons, List.lookup_cons, ih]
    by_cases same : item = first
    · simp [same]
    · have other : (name item == name first) = false := by simpa using distinct.ne same
      simp [other, same]

/-- The report has the totals of the kinds that occur, and no others. -/
theorem Report.member?_diagnostics (census : Census) (kind : DiagnosticKind) :
    ((Report.ofCensus census).toJson.member? "diagnostics").bind (·.member? kind.key) =
      if kind ∈ Diagnostic.kinds census.diagnostics then
        some (.number (Diagnostic.countOf kind census.diagnostics))
      else none := by
  have counted : (Report.ofCensus census).toJson.member? "diagnostics" =
      some (.object ((Diagnostic.counts census.diagnostics).map
        fun entry => (entry.1.key, .number entry.2))) := rfl
  rw [counted, Option.bind_some, Diagnostic.counts_eq, List.map_map]
  exact lookup_map_of_injective DiagnosticKind.key_injective _ _ kind

/-- The lines of a census fit: the diagnostics, if no path of an input breaks one, and the totals
after them. -/
theorem Corpus.fitsLine_of_mem_diagnostics {corpus : Corpus}
    (paths : ∀ source ∈ corpus.sources, '\n' ∉ source.path.toList) {diagnostic : Diagnostic}
    (mem : diagnostic ∈ (corpus.census []).diagnostics) : FitsLine diagnostic.text := by
  have ofPlaced (told : FitsLine diagnostic.message)
      (placed : diagnostic.IsPlacedIn corpus.sources) : FitsLine diagnostic.text := by
    refine Diagnostic.fitsLine_text told fun location place => ?_
    obtain ⟨_, found, source, listed, inside⟩ := placed
    obtain rfl := Option.some_inj.mp (place.symm.trans found)
    exact inside.file ▸ paths source listed
  have formed := SymbolTables.WellFormed.ofSources corpus.scripts
  rcases Survey.mem_diagnostics mem with violation | resolved | frame | occurrence | record
  · obtain ⟨reading, read, found⟩ := violation
    obtain ⟨source, listed, rfl⟩ := List.mem_map.mp read
    obtain ⟨location, place, inside⟩ := isIn_of_violation found
    refine ofPlaced (fitsLine_of_violation found) ⟨location, place, source, ?_, inside⟩
    exact Corpus.script_mem_sources listed
  · obtain ⟨told, place⟩ := formed.fitsLine_of_mem_resolve resolved
    refine Diagnostic.fitsLine_text told fun location found => ?_
    rw [place] at found
    cases found
  · refine ofPlaced ?_ (isPlacedIn_of_mem_frames frame)
    rw [survey_frames, survey_resolution] at frame
    exact fitsLine_of_mem_frames formed frame
  · refine ofPlaced ?_ (isPlacedIn_of_mem_instanceFindings occurrence)
    obtain ⟨entry, scanned, occurrence⟩ := List.mem_flatMap.mp occurrence
    obtain ⟨source, -, rfl⟩ := List.mem_map.mp scanned
    exact Instance.fitsLine_of_mem_sourceFindings occurrence
  · obtain ⟨findings, scanned, record⟩ := record
    refine ofPlaced ?_ (isPlacedIn_of_mem_definitions scanned record)
    obtain ⟨source, -, rfl⟩ := Option.map_eq_some_iff.mp scanned
    exact Definition.fitsLine_of_mem_sourceFindings record

/-- What is printed of a census is read back as one line for each diagnostic, in order, and then
one for each kind that occurs, in the order of kinds, if no path of an input has a line feed in it.
The totals are those that the report has, which has no others, and they add up to the number of
diagnostics. -/
theorem census_printed (corpus : Corpus)
    (paths : ∀ source ∈ corpus.sources, '\n' ∉ source.path.toList) :
    let census := corpus.census []
    let diagnostics := census.diagnostics
    let kinds := DiagnosticKind.all.filter fun kind => kind ∈ diagnostics.map Diagnostic.kind
    let count kind := Diagnostic.countOf kind diagnostics
    (∀ diagnostic ∈ diagnostics, '\n' ∉ diagnostic.text.toList) ∧
      lines (Diagnostic.printed diagnostics) =
        (diagnostics.map Diagnostic.text ++
          kinds.map fun kind => toString (count kind) ++ " x " ++ kind.label).map String.toList ∧
      (∀ kind, ((Report.ofCensus census).toJson.member? "diagnostics").bind
        (·.member? kind.key) = if kind ∈ kinds then some (.number (count kind)) else none) ∧
      (kinds.map count).sum = diagnostics.length := by
  intro census diagnostics kinds count
  have fit : ∀ diagnostic ∈ diagnostics, FitsLine diagnostic.text := fun _ mem =>
    Corpus.fitsLine_of_mem_diagnostics paths mem
  refine ⟨fun diagnostic mem => (fit diagnostic mem).1, ?_,
    Report.member?_diagnostics census, Diagnostic.sum_countOf diagnostics⟩
  have printed : Diagnostic.printedLines diagnostics = diagnostics.map Diagnostic.text ++
      kinds.map fun kind => toString (count kind) ++ " x " ++ kind.label := by
    rw [Diagnostic.printedLines, Diagnostic.counts_eq, List.map_map]
    rfl
  rw [Diagnostic.printed, printed]
  refine lines_join fun text mem => ?_
  rcases List.mem_append.mp mem with mem | mem
  · obtain ⟨diagnostic, listed, rfl⟩ := List.mem_map.mp mem
    exact fit diagnostic listed
  · obtain ⟨kind, -, rfl⟩ := List.mem_map.mp mem
    exact .append (.append (unblanked_nat _).fitsLine (by decide)) kind.fitsLine_label

/-- A file of instance lines whose only line ends in a keyword. -/
def lastKeyword : Instance.Source :=
  ⟨⟨"spawn.txt", ["spawn"], 1, .spawn⟩, "in/spawn.txt", "A.CON:7: spawn"⟩

/-- A keyword without an argument takes a line, and its kind another one. -/
theorem census_printed_lastKeyword :
    let corpus : Corpus := ⟨4, ∅, ∅, [], [lastKeyword], none⟩
    (∀ source ∈ corpus.sources, '\n' ∉ source.path.toList) ∧
      lines (Diagnostic.printed (corpus.census []).diagnostics) =
        ["in/spawn.txt:1: missing argument: no argument at offset 1: spawn".toList,
         "1 x missing argument".toList] := by
  intro corpus
  have paths : ∀ source ∈ corpus.sources, '\n' ∉ source.path.toList := by decide
  have found : (corpus.census []).diagnostics =
      [Instance.missingArgument ⟨"in/spawn.txt", 1⟩ 1 "spawn"] := by
    decide +kernel
  obtain ⟨-, printed, -⟩ := census_printed corpus paths
  refine ⟨paths, printed.trans ?_⟩
  rw [found]
  decide +kernel

end TileCensus
