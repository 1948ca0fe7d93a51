import TileCensus.Proofs.DefinitionSteps
import TileCensus.Proofs.Growth

/-!
# A wider tile space

What a run finds depends on the size of its tile space in one way only: a range of tiles that does
not fit is reported, and in a wider space it may fit. So a run in a wider space finds the same
things in the same order, but for some ranges that are marked instead of being reported
(`Finding.Widens`). Nothing that was marked is lost. A bitmap in which only single tiles are marked
is in the smaller space just that part of the wider one; a longer range is lost there as a whole.
-/

namespace TileCensus

open Script Tile

/-! ## Findings in a wider space -/

/-- What the tiles of a record are does not depend on the space; only the report does. -/
theorem Tile.inclusiveRange_eq_ok_congr {first last : Int64} (narrow wide : Nat)
    (range : Tile.Range) :
    inclusiveRange first last narrow = .ok range ↔ inclusiveRange first last wide = .ok range := by
  unfold inclusiveRange
  cases add? last 1 with
  | none => exact ⟨nofun, nofun⟩
  | some stop => exact Iff.rfl

namespace Finding

variable {κ : Type}

/-- What is found in a space of a size, and what is found in its place in a wider one. -/
inductive Widens (maxTiles : Nat) : Finding κ → Finding κ → Prop where
  /-- A problem that has nothing to do with the space. -/
  | problem {diagnostic : Diagnostic} (other : diagnostic.kind ≠ .tileOutOfRange) :
      Widens maxTiles (.problem diagnostic) (.problem diagnostic)
  /-- A range that fits neither space. -/
  | rejected {diagnostic still : Diagnostic} (kind : diagnostic.kind = .tileOutOfRange)
      (kind' : still.kind = .tileOutOfRange) :
      Widens maxTiles (.problem diagnostic) (.problem still)
  /-- A range that fits only the wider space. -/
  | placed {diagnostic : Diagnostic} (kind : diagnostic.kind = .tileOutOfRange) (target : κ)
      {range : Tile.Range} (outside : (maxTiles : Int) < range.stop.toInt) :
      Widens maxTiles (.problem diagnostic) (.mark target range)
  /-- A range that fits both spaces. -/
  | kept (target : κ) {range : Tile.Range} (inside : range.stop.toInt ≤ maxTiles) :
      Widens maxTiles (.mark target range) (.mark target range)

theorem widens_ofRange {narrow wide : Nat} (wider : narrow ≤ wide) (target : κ)
    {report report' : RangeError → Diagnostic}
    (kind : ∀ reason, (report reason).kind = .tileOutOfRange)
    (kind' : ∀ reason, (report' reason).kind = .tileOutOfRange)
    {range? range?' : Except RangeError Tile.Range}
    (same : ∀ range, range? = .ok range ↔ range?' = .ok range) :
    Widens narrow (ofRange target narrow report range?) (ofRange target wide report' range?') := by
  -- a range fits the smaller space if it fits the wider one and ends in the smaller one
  have fits (range : Tile.Range) : range?.bind (·.within narrow) = .ok range ↔
      range?'.bind (·.within wide) = .ok range ∧ range.stop.toInt ≤ narrow := by
    rw [bind_within_eq_ok_iff, bind_within_eq_ok_iff, Range.within_eq_ok_iff,
      Range.within_eq_ok_iff, same]
    constructor
    · rintro ⟨found, -, nonneg, ordered, inside⟩
      exact ⟨⟨found, rfl, nonneg, ordered, by omega⟩, inside⟩
    · rintro ⟨⟨found, -, nonneg, ordered, -⟩, inside⟩
      exact ⟨found, rfl, nonneg, ordered, inside⟩
  unfold ofRange
  cases second : range?'.bind (·.within wide) with
  | error reason' =>
    cases first : range?.bind (·.within narrow) with
    | error reason => exact .rejected (kind reason) (kind' reason')
    | ok range =>
      rw [((fits range).mp first).1] at second
      cases second
  | ok range =>
    by_cases inside : range.stop.toInt ≤ narrow
    · rw [(fits range).mpr ⟨second, inside⟩]
      exact .kept target inside
    · cases first : range?.bind (·.within narrow) with
      | error reason => exact .placed (kind reason) target (by omega)
      | ok other =>
        obtain ⟨found, last⟩ := (fits other).mp first
        rw [second] at found
        cases found
        exact absurd last inside

/-! ## Scans in a wider space -/

section

variable {narrow wide : Nat} {first second : List (Finding κ)} {target : κ}

/-- What is marked in the smaller space is what is marked in the wider one and ends in the
smaller. -/
theorem mark_mem_iff_of_widens (widens : List.Forall₂ (Widens narrow) first second)
    {range : Tile.Range} :
    mark target range ∈ first ↔ mark target range ∈ second ∧ range.stop.toInt ≤ narrow := by
  induction widens with
  | nil => simp
  | cons head _ ih =>
    rw [List.mem_cons, List.mem_cons, ih, or_and_right]
    refine or_congr_left ?_
    cases head with
    | problem other => simp
    | rejected kind kind' => simp
    | placed kind other outside =>
      refine iff_of_false nofun ?_
      rintro ⟨made, inside⟩
      cases made
      omega
    | kept other inside =>
      refine ⟨?_, And.left⟩
      intro made
      cases made
      exact ⟨rfl, inside⟩

theorem marksWithin_of_widens (widens : List.Forall₂ (Widens narrow) first second) :
    MarksWithin first second :=
  fun _ _ mem => ((mark_mem_iff_of_widens widens).mp mem).1

theorem filter_diagnostics_of_widens (widens : List.Forall₂ (Widens narrow) first second) :
    (diagnostics first).filter (·.kind ≠ .tileOutOfRange) =
      (diagnostics second).filter (·.kind ≠ .tileOutOfRange) := by
  unfold diagnostics
  induction widens with
  | nil => rfl
  | cons head _ ih =>
    cases head with
    | problem other => simpa [other] using ih
    | rejected kind kind' => simpa [kind, kind'] using ih
    | placed kind target outside => simpa [kind] using ih
    | kept target inside => simpa using ih

theorem countOf_diagnostics_of_widens (widens : List.Forall₂ (Widens narrow) first second) :
    Diagnostic.countOf .tileOutOfRange (diagnostics second) ≤
      Diagnostic.countOf .tileOutOfRange (diagnostics first) := by
  unfold diagnostics Diagnostic.countOf
  induction widens with
  | nil => exact Nat.le_refl _
  | cons head _ ih =>
    cases head with
    | problem other => simpa [other] using ih
    | rejected kind kind' => simpa [kind, kind'] using ih
    | placed kind target outside =>
      refine ih.trans ?_
      simp [kind]
    | kept target inside => simpa using ih

end

end Finding

/-! ## Parts of bitmaps -/

/-- The part of a bitmap that lies in a smaller space. -/
def Tile.Bitmap.below (bitmap : Bitmap) (maxTiles : Nat) : Bitmap :=
  ⟨bitmap.flags.extract 0 maxTiles⟩

theorem Tile.Bitmap.isSet_below {bitmap : Bitmap} {maxTiles tile : Nat} :
    (bitmap.below maxTiles).isSet tile = true ↔ bitmap.isSet tile = true ∧ tile < maxTiles := by
  rw [isSet, below, isSet, Array.getElem?_extract, Nat.zero_add]
  split
  next inside => exact ⟨fun marked => ⟨marked, by omega⟩, And.left⟩
  next outside =>
    refine iff_of_false (by rintro ⟨⟩) ?_
    rintro ⟨marked, inside⟩
    rw [Array.getElem?_eq_none (by omega)] at marked
    cases marked

theorem Tile.Bitmap.size_below {bitmap : Bitmap} {maxTiles : Nat} (wider : maxTiles ≤ bitmap.size) :
    (bitmap.below maxTiles).size = maxTiles := by
  rw [size, below, Array.size_extract, Nat.sub_zero]
  exact Nat.min_eq_left wider

namespace Finding

variable {κ : Type} [DecidableEq κ] {narrow wide : Nat} {first second : List (Finding κ)}
  {target : κ}

/-- Where single tiles are marked, the smaller space has its part of the wider one. -/
theorem bitmap_eq_below (wider : narrow ≤ wide)
    (widens : List.Forall₂ (Widens narrow) first second)
    (single : ∀ range, mark target range ∈ second → range.stop.toInt = range.start.toInt + 1) :
    bitmap narrow target first = (bitmap wide target second).below narrow := by
  have inSpace : narrow ≤ (bitmap wide target second).size := by rwa [size_bitmap]
  refine Bitmap.ext_isSet ?_ fun tile => ?_
  · rw [size_bitmap, Bitmap.size_below inSpace]
  · rw [Bitmap.isSet_below, isSet_bitmap, isSet_bitmap]
    constructor
    · rintro ⟨range, mem, contains, inside⟩
      have marked := ((mark_mem_iff_of_widens widens).mp mem).1
      exact ⟨⟨range, marked, contains, by omega⟩, inside⟩
    · rintro ⟨⟨range, mem, ⟨low, high⟩, -⟩, inside⟩
      have stop := single range mem
      have marked := (mark_mem_iff_of_widens widens).mpr ⟨mem, by omega⟩
      exact ⟨range, marked, ⟨low, high⟩, inside⟩

omit [DecidableEq κ] in
theorem eq_of_ofRange_eq_mark {maxTiles : Nat} {report : RangeError → Diagnostic} {other : κ}
    {range? : Except RangeError Tile.Range} {range : Tile.Range}
    (marks : ofRange other maxTiles report range? = mark target range) : other = target := by
  unfold ofRange at marks
  split at marks
  next =>
    cases marks
    rfl
  next => cases marks

omit [DecidableEq κ] in
theorem stop_of_ofRange_inclusiveRange {maxTiles : Nat} {report : RangeError → Diagnostic}
    {other : κ} {tile : Int64} {range : Tile.Range}
    (marks : ofRange other maxTiles report (inclusiveRange tile tile maxTiles) =
      mark target range) :
    range.stop.toInt = range.start.toInt + 1 := by
  obtain rfl := eq_of_ofRange_eq_mark marks
  obtain ⟨start, stop, -⟩ := inclusiveRange_within_eq_ok_iff.mp (ofRange_eq_mark_iff.mp marks)
  rw [stop, start]

end Finding

/-! ## Passes in a wider space -/

theorem forall₂_flatMap {α β : Type} {Related : β → β → Prop} {items : List α}
    {find other : α → List β} (related : ∀ item ∈ items,
      List.Forall₂ Related (find item) (other item)) :
    List.Forall₂ Related (items.flatMap find) (items.flatMap other) :=
  List.rel_flatten (List.forall₂_map_left_iff.mpr (List.forall₂_map_right_iff.mpr
    (List.forall₂_same.mpr related)))

theorem forall₂_filterMap {α β : Type} {Related : β → β → Prop} {items : List α}
    {find other : α → Option β} (related : ∀ item ∈ items,
      Option.Rel Related (find item) (other item)) :
    List.Forall₂ Related (items.filterMap find) (items.filterMap other) := by
  rw [List.filterMap_eq_flatMap_toList, List.filterMap_eq_flatMap_toList]
  refine forall₂_flatMap fun item mem => ?_
  have pair := related item mem
  generalize find item = found at pair ⊢
  generalize other item = found' at pair ⊢
  cases pair with
  | none => exact .nil
  | some pair => exact .cons pair .nil

section Passes

variable {narrow wide : Nat} (wider : narrow ≤ wide) (constants : Constants)

include wider

theorem widens_actionFindings (actor : String) (tile : Int64) (name : String)
    (action : ActionDef) :
    List.Forall₂ (Finding.Widens narrow) (actionFindings narrow constants actor tile name action)
      (actionFindings wide constants actor tile name action) := by
  unfold actionFindings
  split
  next range found =>
    refine .cons ?_ .nil
    exact Finding.widens_ofRange wider () (fun _ => rfl) (fun _ => rfl) fun _ => Iff.rfl
  next =>
    refine List.forall₂_same.mpr fun finding mem => ?_
    obtain ⟨operand, -, rfl⟩ := List.mem_map.mp mem
    exact .problem nofun

theorem widens_frameFindings (tables : SymbolTables) (actorActions : Table String NameSet) :
    List.Forall₂ (Finding.Widens narrow) (frameFindings narrow constants tables actorActions)
      (frameFindings wide constants tables actorActions) := by
  refine forall₂_flatMap fun ⟨actor, actions⟩ _ => List.rel_append ?_ ?_
  · split
    next => exact .cons (.problem nofun) .nil
    next => exact .nil
  · refine forall₂_flatMap fun name _ => ?_
    split
    next => exact .cons (.problem nofun) .nil
    next => exact .nil
    next action tile _ _ _ => exact widens_actionFindings wider constants actor tile name action

theorem Instance.widens_occurrenceFinding? (variableNames : NameSet) (rule : Rule)
    (location : Location) (line : String) (argument : Option String) :
    Option.Rel (Finding.Widens narrow)
      (occurrenceFinding? ⟨narrow, constants, variableNames⟩ rule location line argument)
      (occurrenceFinding? ⟨wide, constants, variableNames⟩ rule location line argument) := by
  cases argument with
  | none => exact .some (.problem nofun)
  | some token =>
    unfold occurrenceFinding?
    dsimp only
    split
    next => exact .none
    next =>
      split
      next => exact .some (.problem nofun)
      next tile _ =>
        exact .some (Finding.widens_ofRange wider rule.category (fun _ => rfl) (fun _ => rfl)
          (inclusiveRange_eq_ok_congr narrow wide))

theorem Instance.widens_sourceFindings (variableNames : NameSet) (source : Instance.Source) :
    List.Forall₂ (Finding.Widens narrow)
      (sourceFindings ⟨narrow, constants, variableNames⟩ source)
      (sourceFindings ⟨wide, constants, variableNames⟩ source) := by
  refine forall₂_flatMap fun ⟨line, number⟩ _ => ?_
  unfold lineFindings
  refine forall₂_filterMap fun argument _ => ?_
  exact widens_occurrenceFinding? wider constants variableNames ..

theorem Definition.widens_markTiles (file : String) (target : Target) (keyword : Token)
    (first last : Int64) :
    Finding.Widens narrow (markTiles ⟨file, narrow, constants⟩ target keyword first last)
      (markTiles ⟨file, wide, constants⟩ target keyword first last) :=
  Finding.widens_ofRange wider target (fun _ => rfl) (fun _ => rfl)
    (inclusiveRange_eq_ok_congr narrow wide)

/-- In a wider space a step goes on from the same tokens in the same state. -/
theorem Definition.stepsCompare_of_wider (file : String) (state : State) (token : Token)
    (tokens : List Token) :
    StepsCompare Eq (List.Forall₂ (Finding.Widens narrow))
      (step ⟨file, narrow, constants⟩ state token tokens)
      (step ⟨file, wide, constants⟩ state token tokens) := by
  have read (tokens : List Token) : readArgument ⟨file, narrow, constants⟩ token tokens =
      readArgument ⟨file, wide, constants⟩ token tokens := rfl
  have quiet (tokens : List Token) : List.Forall₂ (Finding.Widens narrow)
      (readArgument ⟨file, wide, constants⟩ token tokens).findings
      (readArgument ⟨file, wide, constants⟩ token tokens).findings := by
    refine List.forall₂_same.mpr fun finding mem => ?_
    obtain ⟨diagnostic, rfl, kind⟩ := exists_problem_of_mem_readArgument mem
    exact .problem kind
  have marks (target : Target) (value : Option Int64) : List.Forall₂ (Finding.Widens narrow)
      (value.toList.map fun tile => markTiles ⟨file, narrow, constants⟩ target token tile tile)
      (value.toList.map fun tile => markTiles ⟨file, wide, constants⟩ target token tile tile) := by
    refine List.forall₂_map_left_iff.mpr (List.forall₂_map_right_iff.mpr ?_)
    exact List.forall₂_same.mpr fun tile _ => widens_markTiles wider constants file ..
  unfold step
  cases state.keyword? token.word with
  | none => exact ⟨rfl, rfl, .nil⟩
  | some keyword =>
    simp only [read]
    cases keyword with
    | openBlock => exact ⟨rfl, rfl, .nil⟩
    | closeBlock => exact ⟨rfl, rfl, .nil⟩
    | voxel => exact ⟨rfl, rfl, .nil⟩
    | tileFromTexture => exact ⟨rfl, rfl, List.rel_append (quiet _) (marks _ _)⟩
    | tile => exact ⟨rfl, rfl, List.rel_append (quiet _) (marks _ _)⟩
    | tile0 => exact ⟨rfl, rfl, quiet _⟩
    | animTileRange =>
      refine ⟨rfl, rfl, List.rel_append (List.rel_append (quiet _) (quiet _)) ?_⟩
      split
      next => exact .cons (widens_markTiles wider constants file ..) .nil
      next => exact .nil
    | tile1 =>
      refine ⟨rfl, rfl, List.rel_append (quiet _) ?_⟩
      split
      next => exact .cons (widens_markTiles wider constants file ..) .nil
      next => exact .cons (.problem nofun) .nil
      next => exact .nil

theorem Definition.widens_sourceFindings (source : Source) :
    List.Forall₂ (Finding.Widens narrow) (sourceFindings narrow constants source)
      (sourceFindings wide constants source) := by
  refine compares_scanFrom Eq (List.Forall₂ (Finding.Widens narrow)) .nil
    (fun front back => List.rel_append front back) ?_ rfl _
  rintro state _ token tokens rfl
  exact stepsCompare_of_wider wider constants source.path state token tokens

end Passes

/-! ## Passes that mark single tiles -/

theorem Instance.stop_of_mem_sourceFindings {lookup : Lookup} {source : Instance.Source}
    {category : Category} {range : Tile.Range}
    (mem : .mark category range ∈ sourceFindings lookup source) :
    range.stop.toInt = range.start.toInt + 1 := by
  obtain ⟨⟨line, number⟩, -, mem⟩ := List.mem_flatMap.mp mem
  obtain ⟨argument, -, found⟩ := List.mem_filterMap.mp mem
  unfold occurrenceFinding? at found
  split at found
  next => cases found
  next =>
    dsimp only at found
    split at found
    next => cases found
    next =>
      split at found
      next => cases found
      next => exact Finding.stop_of_ofRange_inclusiveRange (Option.some_inj.mp found)

/-- Tiles are given art one by one. -/
theorem Definition.stop_of_mem_sourceFindings {maxTiles : Nat} {constants : Constants}
    {source : Source} {range : Tile.Range}
    (mem : .mark .nonempty range ∈ sourceFindings maxTiles constants source) :
    range.stop.toInt = range.start.toInt + 1 := by
  obtain ⟨keyword, rest, -, finds⟩ := exists_finds_of_mem_sourceFindings mem
  generalize made : Finding.mark Target.nonempty range = finding at finds
  cases finds with
  | missing => cases made
  | unknown later => cases made
  | unstarted => cases made
  | tile target n => exact Finding.stop_of_ofRange_inclusiveRange made.symm
  | range ranged first last => exact absurd (Finding.eq_of_ofRange_eq_mark made.symm) ranged

/-! ## Runs in a wider space -/

/-- What a survey of some space finds, and what one of a wider space finds, pass by pass. -/
structure Survey.Widens (maxTiles : Nat) (first second : Survey) : Prop where
  frames : List.Forall₂ (Finding.Widens maxTiles) first.frames second.frames
  instances :
    List.Forall₂ (Finding.Widens maxTiles) first.instanceFindings second.instanceFindings
  definitions : Option.Rel (List.Forall₂ (Finding.Widens maxTiles)) first.definitions
    second.definitions

/-- A corpus with a tile space of a given size. -/
def Corpus.inSpace (corpus : Corpus) (maxTiles : Nat) : Corpus := { corpus with maxTiles }

theorem Corpus.widens_survey (corpus : Corpus) {narrow wide : Nat} (wider : narrow ≤ wide) :
    (corpus.inSpace narrow).survey.Widens narrow (corpus.inSpace wide).survey := by
  refine ⟨?_, ?_, ?_⟩
  · rw [survey_frames, survey_frames, survey_resolution, survey_resolution]
    exact widens_frameFindings wider corpus.constants _ _
  · simp only [Survey.instanceFindings, survey, List.flatMap_map]
    exact forall₂_flatMap fun source _ =>
      Instance.widens_sourceFindings wider corpus.constants corpus.variableNames source
  · simp only [survey, inSpace]
    cases corpus.definitions with
    | none => exact .none
    | some source => exact .some (Definition.widens_sourceFindings wider corpus.constants source)

theorem Survey.Widens.marksWithin {maxTiles : Nat} {first second : Survey}
    (widens : first.Widens maxTiles second) : first.MarksWithin second := by
  refine ⟨Finding.marksWithin_of_widens widens.frames,
    Finding.marksWithin_of_widens widens.instances, ?_⟩
  have scanned := widens.definitions
  generalize first.definitions = findings at scanned ⊢
  generalize second.definitions = others at scanned ⊢
  cases scanned with
  | none => exact .none
  | some definitions => exact .some (Finding.marksWithin_of_widens definitions)

/-- All diagnostics but those of the tile space are the same, and of those there are no more. -/
theorem Corpus.diagnostics_of_wider (corpus : Corpus) {narrow wide : Nat} (wider : narrow ≤ wide) :
    let first := (corpus.inSpace narrow).survey.diagnostics
    let second := (corpus.inSpace wide).survey.diagnostics
    first.filter (·.kind ≠ .tileOutOfRange) = second.filter (·.kind ≠ .tileOutOfRange) ∧
      Diagnostic.countOf .tileOutOfRange second ≤ Diagnostic.countOf .tileOutOfRange first := by
  intro first second
  have widens := corpus.widens_survey wider
  have scanned := widens.definitions
  have sameScripts : (corpus.inSpace narrow).scripts = (corpus.inSpace wide).scripts := rfl
  have frames := Finding.countOf_diagnostics_of_widens widens.frames
  have instances := Finding.countOf_diagnostics_of_widens widens.instances
  simp only [first, second, Survey.diagnostics, List.filter_append, Diagnostic.countOf_append,
    Corpus.survey_readings, Corpus.survey_resolution, sameScripts,
    Finding.filter_diagnostics_of_widens widens.frames,
    Finding.filter_diagnostics_of_widens widens.instances]
  generalize (corpus.inSpace narrow).survey.definitions = findings at scanned ⊢
  generalize (corpus.inSpace wide).survey.definitions = others at scanned ⊢
  cases scanned with
  | none => exact ⟨rfl, by omega⟩
  | some definitions =>
    have count := Finding.countOf_diagnostics_of_widens definitions
    simp only [Option.map_some, Option.getD_some,
      Finding.filter_diagnostics_of_widens definitions, true_and]
    omega

/-- In a wider tile space everything is marked that was marked before. The bitmaps of instance
lines and of tiles with art were just the part of the new ones that lies in the old space. Apart
from ranges that do not fit, of which there are no more than before, the same is reported, and the
symbols are the same. -/
theorem census_mono_maxTiles (corpus : Corpus) {narrow wide : Nat} (wider : narrow ≤ wide)
    (loading : List Diagnostic) :
    let first := (corpus.inSpace narrow).census loading
    let second := (corpus.inSpace wide).census loading
    first.MarksWithin second ∧
      (∀ category, first.instances.get category =
        (second.instances.get category).below narrow) ∧
      (first.definitions.map fun tiles => tiles.nonempty) =
        (second.definitions.map fun tiles => tiles.nonempty.below narrow) ∧
      first.diagnostics.filter (·.kind ≠ .tileOutOfRange) =
        second.diagnostics.filter (·.kind ≠ .tileOutOfRange) ∧
      Diagnostic.countOf .tileOutOfRange second.diagnostics ≤
        Diagnostic.countOf .tileOutOfRange first.diagnostics ∧
      first.summary = second.summary ∧ first.unusedActions = second.unusedActions := by
  intro first second
  have widens := corpus.widens_survey wider
  obtain ⟨others, count⟩ := corpus.diagnostics_of_wider wider
  have symbols := Corpus.symbols_of_scripts
    (show (corpus.inSpace narrow).scripts = (corpus.inSpace wide).scripts from rfl) loading
  refine ⟨widens.marksWithin.census wider loading, fun category => ?_, ?_, ?_, ?_, symbols⟩
  · simp only [first, second, Corpus.census, Survey.census, Instance.Tiles.get_ofFindings]
    refine Finding.bitmap_eq_below wider widens.instances fun range mem => ?_
    obtain ⟨entry, scanned, mem⟩ := List.mem_flatMap.mp mem
    obtain ⟨source, -, rfl⟩ := List.mem_map.mp scanned
    exact Instance.stop_of_mem_sourceFindings mem
  · simp only [first, second, Corpus.census, Survey.census, Corpus.survey, Corpus.inSpace,
      Option.map_map]
    refine Option.map_congr fun source _ => ?_
    exact Finding.bitmap_eq_below wider
      (Definition.widens_sourceFindings wider corpus.constants source)
      fun range mem => Definition.stop_of_mem_sourceFindings mem
  · simp only [first, second, Corpus.census, Survey.census, List.filter_append]
    rw [others]
  · simp only [first, second, Corpus.census, Survey.census, Diagnostic.countOf_append]
    exact Nat.add_le_add_left count _

/-- A record of tiles 6 to 9 is reported in a space of 8 tiles, and marked in one of 16. -/
theorem census_mono_maxTiles_animation :
    let definitions : Source := ⟨"a.def", "animtilerange 6 9"⟩
    let corpus : Corpus := ⟨8, ∅, ∅, [], [], some definitions⟩
    let first := (corpus.inSpace 8).census []
    let second := (corpus.inSpace 16).census []
    8 ≤ 16 ∧ first.MarksWithin second ∧
      (first.definitions.map fun tiles => tiles.animation.isSet 6) = some false ∧
      (second.definitions.map fun tiles => tiles.animation.isSet 6) = some true := by
  intro definitions corpus first second
  obtain ⟨within, -⟩ := census_mono_maxTiles corpus (show 8 ≤ 16 by decide) []
  have tokens : Definition.tokens definitions.text =
      [⟨"animtilerange", 1⟩, ⟨"6", 1⟩, ⟨"9", 1⟩] := by
    cbv
  have step (maxTiles : Nat) : Definition.step ⟨"a.def", maxTiles, ∅⟩ .initial
      ⟨"animtilerange", 1⟩ [⟨"6", 1⟩, ⟨"9", 1⟩] =
        ⟨.initial,
          [Definition.markTiles ⟨"a.def", maxTiles, ∅⟩ .animation ⟨"animtilerange", 1⟩ 6 9], []⟩ :=
    rfl
  have found (maxTiles : Nat) : (corpus.inSpace maxTiles).survey.definitions =
      some [Definition.markTiles ⟨"a.def", maxTiles, ∅⟩ .animation ⟨"animtilerange", 1⟩ 6 9] := by
    simp only [Corpus.survey, Corpus.inSpace, corpus, Option.map_some, Definition.sourceFindings,
      tokens, Definition.scanFrom_cons]
    rw [step, Definition.scanFrom]
    rfl
  refine ⟨by decide, within, ?_, ?_⟩
  · simp only [first, Corpus.census, Survey.census, found]
    rfl
  · simp only [second, Corpus.census, Survey.census, found]
    rfl

end TileCensus
