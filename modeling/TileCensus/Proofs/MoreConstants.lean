import TileCensus.Proofs.DefinitionSteps
import TileCensus.Proofs.FrameMarks
import TileCensus.Proofs.Growth

/-!
# More constants

A name that stands for nothing costs what depends on it: an actor its frames, an action the frames
of one definition, an instance line its tile, a definition its range. Constants that are added take
nothing away, so what was marked before is marked still.

For definitions that is not seen keyword by keyword. An argument that is not known clears the tile
that an earlier `tile0` has named, so two scans can stand in different states. They stay alike in
that the one with more constants remembers every tile that the other one remembers (`Ahead`).
-/

namespace TileCensus

open Script Tile

/-- Constants that give every name of others the same value. -/
def Constants.IsExtendedBy (constants others : Constants) : Prop :=
  ∀ (name : String) (value : Int64), constants[name]? = some value → others[name]? = some value

variable {constants others : Constants}

theorem Constants.IsExtendedBy.resolve? (extended : constants.IsExtendedBy others) {word : String}
    {value : Int64} (resolved : constants.resolve? word = some value) :
    others.resolve? word = some value := by
  unfold Constants.resolve? at resolved ⊢
  rcases Option.or_eq_some_iff.mp resolved with literal | ⟨unread, found⟩
  · exact Option.or_eq_some_iff.mpr (.inl literal)
  · exact Option.or_eq_some_iff.mpr (.inr ⟨unread, extended word value found⟩)

theorem Constants.IsExtendedBy.resolve?_operand (extended : constants.IsExtendedBy others)
    {operand : Operand} {value : Int64} (resolved : operand.resolve? constants = some value) :
    operand.resolve? others = some value := by
  cases operand with
  | literal other => exact resolved
  | symbol name => exact extended name value resolved

/-! ## Actor frames -/

theorem HasFrames.of_isExtendedBy (extended : constants.IsExtendedBy others)
    {tables : SymbolTables} {actor name : String} {action : ActionDef} {numbers : FrameNumbers}
    (has : HasFrames constants tables actor name action numbers) :
    HasFrames others tables actor name action numbers where
  definition := has.definition
  tile := extended.resolve? has.tile
  startFrame := extended.resolve?_operand has.startFrame
  frameCount := extended.resolve?_operand has.frameCount
  viewType := extended.resolve?_operand has.viewType

theorem marksWithin_frameFindings (extended : constants.IsExtendedBy others) (maxTiles : Nat)
    (tables : SymbolTables) (actorActions : Table String NameSet) :
    Finding.MarksWithin (frameFindings maxTiles constants tables actorActions)
      (frameFindings maxTiles others tables actorActions) := by
  rintro ⟨⟩ range mem
  obtain ⟨actor, name, action, numbers, holds, has, fits⟩ := mark_mem_frameFindings_iff.mp mem
  exact mark_mem_frameFindings_iff.mpr
    ⟨actor, name, action, numbers, holds, has.of_isExtendedBy extended, fits⟩

/-! ## Instance lines -/

namespace Instance

theorem occurrenceFinding?_of_isExtendedBy (extended : constants.IsExtendedBy others)
    {maxTiles : Nat} {variableNames : NameSet} {rule : Rule} {location : Location} {line : String}
    {argument : Option String} {category : Category} {range : Tile.Range}
    (marks : occurrenceFinding? ⟨maxTiles, constants, variableNames⟩ rule location line argument =
      some (.mark category range)) :
    occurrenceFinding? ⟨maxTiles, others, variableNames⟩ rule location line argument =
      some (.mark category range) := by
  cases argument with
  | none => cases marks
  | some token =>
    unfold occurrenceFinding? at marks ⊢
    dsimp only at marks ⊢
    split at marks
    next => cases marks
    next unlisted =>
      split at marks
      next => cases marks
      next tile resolved =>
        rw [if_neg unlisted, extended.resolve? resolved]
        exact marks

theorem marksWithin_sourceFindings (extended : constants.IsExtendedBy others) (maxTiles : Nat)
    (variableNames : NameSet) (source : Source) :
    Finding.MarksWithin (sourceFindings ⟨maxTiles, constants, variableNames⟩ source)
      (sourceFindings ⟨maxTiles, others, variableNames⟩ source) := by
  refine Finding.MarksWithin.flatMap fun ⟨line, number⟩ _ => ?_
  intro category range mem
  obtain ⟨argument, read, marks⟩ := List.mem_filterMap.mp mem
  exact List.mem_filterMap.mpr
    ⟨argument, read, occurrenceFinding?_of_isExtendedBy extended marks⟩

end Instance

/-! ## Definitions -/

namespace Definition

/-- Two scans stand in the same blocks, and the second one remembers every tile that the first one
remembers. -/
structure Ahead (first second : State) : Prop where
  depth : first.depth = second.depth
  pendingVoxel : first.pendingVoxel = second.pendingVoxel
  voxelDepth : first.voxelDepth = second.voxelDepth
  tile0 : ∀ tile, first.tile0 = some tile → second.tile0 = some tile

variable {first second : State}

theorem Ahead.keyword? (ahead : Ahead first second) (word : String) :
    first.keyword? word = second.keyword? word := by
  unfold State.keyword?
  rw [ahead.depth, ahead.voxelDepth]

theorem Ahead.openBlock (ahead : Ahead first second) : Ahead first.openBlock second.openBlock where
  depth := by rw [State.openBlock, State.openBlock, ahead.depth]
  pendingVoxel := rfl
  voxelDepth := by
    rw [State.openBlock, State.openBlock, ahead.depth, ahead.pendingVoxel, ahead.voxelDepth]
  tile0 := ahead.tile0

theorem Ahead.closeBlock (ahead : Ahead first second) :
    Ahead first.closeBlock second.closeBlock := by
  unfold State.closeBlock
  rw [ahead.depth, ahead.voxelDepth]
  split
  next => exact ⟨rfl, ahead.pendingVoxel, rfl, nofun⟩
  next => exact ⟨rfl, ahead.pendingVoxel, rfl, ahead.tile0⟩

/-- What is found while an argument is read is no mark. -/
theorem marksWithin_readArgument {context : Context} {keyword : Token} {tokens : List Token}
    {found : List (Finding Target)} :
    Finding.MarksWithin (readArgument context keyword tokens).findings found := by
  intro target range mem
  obtain ⟨diagnostic, made, -⟩ := exists_problem_of_mem_readArgument mem
  cases made

section Steps

variable (file : String) (maxTiles : Nat) (keyword : Token) (tokens : List Token)

/-- With more constants an argument takes the same tokens, and it has its value still. -/
theorem readArgument_of_isExtendedBy (extended : constants.IsExtendedBy others) :
    (readArgument ⟨file, maxTiles, constants⟩ keyword tokens).rest =
        (readArgument ⟨file, maxTiles, others⟩ keyword tokens).rest ∧
      ∀ value, (readArgument ⟨file, maxTiles, constants⟩ keyword tokens).value = some value →
        (readArgument ⟨file, maxTiles, others⟩ keyword tokens).value = some value := by
  cases tokens with
  | nil => exact ⟨rfl, by rintro _ ⟨⟩⟩
  | cons token rest =>
    simp only [readArgument]
    split
    next =>
      cases resolved : constants.resolve? token.word with
      | some value =>
        rw [extended.resolve? resolved]
        exact ⟨rfl, fun _ => id⟩
      | none =>
        cases others.resolve? token.word with
        | some value => exact ⟨rfl, by rintro _ ⟨⟩⟩
        | none => exact ⟨rfl, by rintro _ ⟨⟩⟩
    next => exact ⟨rfl, by rintro _ ⟨⟩⟩

theorem marksWithin_toList {value value' : Option Int64}
    (known : ∀ tile, value = some tile → value' = some tile) (target : Target) :
    Finding.MarksWithin
      (value.toList.map fun tile =>
        markTiles ⟨file, maxTiles, constants⟩ target keyword tile tile)
      (value'.toList.map fun tile =>
        markTiles ⟨file, maxTiles, others⟩ target keyword tile tile) := by
  intro other range mem
  obtain ⟨tile, listed, made⟩ := List.mem_map.mp mem
  have kept := known tile (Option.mem_toList.mp listed)
  exact List.mem_map.mpr ⟨tile, Option.mem_toList.mpr kept, made⟩

/-- With more constants a step from a state that is ahead takes the same tokens, finds the same
marks, and is ahead after it. -/
theorem stepsCompare_of_isExtendedBy (extended : constants.IsExtendedBy others)
    (ahead : Ahead first second) :
    StepsCompare Ahead Finding.MarksWithin (step ⟨file, maxTiles, constants⟩ first keyword tokens)
      (step ⟨file, maxTiles, others⟩ second keyword tokens) := by
  have read (tokens : List Token) :=
    readArgument_of_isExtendedBy file maxTiles keyword tokens extended
  obtain ⟨rest, value⟩ := read tokens
  unfold step
  rw [ahead.keyword?]
  cases second.keyword? keyword.word with
  | none => exact ⟨rfl, ahead, fun _ _ => id⟩
  | some word =>
    cases word with
    | openBlock => exact ⟨rfl, ahead.openBlock, fun _ _ => id⟩
    | closeBlock => exact ⟨rfl, ahead.closeBlock, fun _ _ => id⟩
    | voxel => exact ⟨rfl, ⟨ahead.depth, rfl, ahead.voxelDepth, ahead.tile0⟩, fun _ _ => id⟩
    | tileFromTexture =>
      refine ⟨rest, ⟨ahead.depth, rfl, ahead.voxelDepth, ahead.tile0⟩, ?_⟩
      exact marksWithin_readArgument.append (marksWithin_toList _ _ _ value _)
    | tile =>
      refine ⟨rest, ahead, ?_⟩
      exact marksWithin_readArgument.append (marksWithin_toList _ _ _ value _)
    | tile0 =>
      refine ⟨rest, ⟨ahead.depth, ahead.pendingVoxel, ahead.voxelDepth, value⟩, ?_⟩
      exact marksWithin_readArgument
    | animTileRange =>
      obtain ⟨lastRest, lastValue⟩ :=
        read (readArgument ⟨file, maxTiles, constants⟩ keyword tokens).rest
      dsimp only
      rw [← rest]
      refine ⟨lastRest, ⟨ahead.depth, rfl, ahead.voxelDepth, ahead.tile0⟩, ?_⟩
      refine (marksWithin_readArgument.append marksWithin_readArgument).append ?_
      split
      next firstTile lastTile known lastKnown =>
        rw [value firstTile known, lastValue lastTile lastKnown]
        exact fun _ _ => id
      next => exact fun _ _ mem => absurd mem List.not_mem_nil
    | tile1 =>
      refine ⟨rest, ⟨ahead.depth, ahead.pendingVoxel, ahead.voxelDepth, nofun⟩, ?_⟩
      refine marksWithin_readArgument.append ?_
      split
      next firstTile lastTile begun known =>
        rw [ahead.tile0 firstTile begun, value lastTile known]
        exact fun _ _ => id
      next =>
        intro target range mem
        cases List.mem_singleton.mp mem
      next => exact fun _ _ mem => absurd mem List.not_mem_nil

theorem marksWithin_sourceFindings (extended : constants.IsExtendedBy others) (source : Source) :
    Finding.MarksWithin (sourceFindings maxTiles constants source)
      (sourceFindings maxTiles others source) :=
  compares_scanFrom Ahead Finding.MarksWithin (fun _ _ => id) .append
    (fun keyword tokens ahead =>
      stepsCompare_of_isExtendedBy source.path maxTiles keyword tokens extended ahead)
    ⟨rfl, rfl, rfl, fun _ => id⟩ _

end Steps
end Definition

/-! ## Runs with more constants -/

/-- A corpus with other constants. -/
def Corpus.withConstants (corpus : Corpus) (constants : Constants) : Corpus :=
  { corpus with constants }

theorem Corpus.marksWithin_survey {corpus : Corpus}
    (extended : corpus.constants.IsExtendedBy constants) :
    corpus.survey.MarksWithin (corpus.withConstants constants).survey := by
  refine ⟨?_, ?_, ?_⟩
  · rw [survey_frames, survey_frames, survey_resolution, survey_resolution]
    exact marksWithin_frameFindings extended corpus.maxTiles _ _
  · simp only [Survey.instanceFindings, survey, List.flatMap_map]
    exact Finding.MarksWithin.flatMap fun source _ =>
      Instance.marksWithin_sourceFindings extended corpus.maxTiles corpus.variableNames source
  · simp only [survey, withConstants]
    cases corpus.definitions with
    | none => exact .none
    | some source =>
      exact .some (Definition.marksWithin_sourceFindings corpus.maxTiles extended source)

/-- Constants that are added unmark nothing, and the symbols are the same. -/
theorem census_mono_constants (corpus : Corpus) {constants : Constants}
    (extended : corpus.constants.IsExtendedBy constants) (loading : List Diagnostic) :
    let first := corpus.census loading
    let second := (corpus.withConstants constants).census loading
    first.MarksWithin second ∧ first.summary = second.summary ∧
      first.unusedActions = second.unusedActions := by
  intro first second
  have within := Corpus.marksWithin_survey extended
  have symbols := Corpus.symbols_of_scripts
    (show corpus.scripts = (corpus.withConstants constants).scripts from rfl) loading
  exact ⟨within.census (Nat.le_refl corpus.maxTiles) loading, symbols⟩

/-- A voxel block with a tile `M` and a range from `N` to 3. -/
def voxelRange : Source := ⟨"a.def", "voxel\n\x7b\ntile M\ntile0 N\ntile1 3"⟩

theorem tokens_voxelRange : Definition.tokens voxelRange.text =
    [⟨"voxel", 1⟩, ⟨"\x7b", 2⟩, ⟨"tile", 3⟩, ⟨"M", 3⟩, ⟨"tile0", 4⟩, ⟨"N", 4⟩, ⟨"tile1", 5⟩,
      ⟨"3", 5⟩] := by
  cbv

theorem sourceFindings_voxelRange {constants : Constants}
    (known : constants.resolve? "M" = some 1) :
    let context : Definition.Context := ⟨"a.def", 8, constants⟩
    Definition.sourceFindings 8 constants voxelRange =
      Definition.markTiles context .voxel ⟨"tile", 3⟩ 1 1 ::
        match constants.resolve? "N" with
        | none =>
          [.problem (Definition.unknownArgument context ⟨"tile0", 4⟩ ⟨"N", 4⟩),
            .problem (Definition.missingFirst context ⟨"tile1", 5⟩)]
        | some tile => [Definition.markTiles context .voxel ⟨"tile1", 5⟩ tile 3] := by
  intro context
  have three : constants.resolve? "3" = some 3 := rfl
  rw [Definition.sourceFindings, tokens_voxelRange]
  cases named : constants.resolve? "N" <;>
    simp [Definition.scanFrom, Definition.step, Definition.State.keyword?, Definition.State.initial,
      Definition.State.openBlock, Definition.readArgument, Definition.isArgument, known, named,
      three, context, voxelRange]

/-- Without `N` its range has no beginning, and tile 1 alone is marked. With `N` it is marked as
well. -/
theorem census_mono_constants_voxelRange :
    let constants : Constants := Std.ExtTreeMap.insert ∅ "M" 1
    let others : Constants := constants.insert "N" 2
    let corpus : Corpus := ⟨8, constants, ∅, [], [], some voxelRange⟩
    let first := corpus.census []
    let second := (corpus.withConstants others).census []
    constants.IsExtendedBy others ∧ first.MarksWithin second ∧
      (first.definitions.map fun tiles => tiles.voxel.marked) = some [1] ∧
      (second.definitions.map fun tiles => tiles.voxel.marked) = some [1, 2, 3] := by
  intro constants others corpus first second
  have extended : constants.IsExtendedBy others := by
    intro name value found
    rw [Table.getElem?_insert] at found ⊢
    split
    next same =>
      rw [if_neg (by simp [← same])] at found
      cases found
    next =>
      rw [Table.getElem?_insert]
      exact found
  obtain ⟨within, -⟩ := census_mono_constants corpus extended []
  have unknown : constants.resolve? "N" = none := by decide
  have known : others.resolve? "N" = some 2 := by decide
  refine ⟨extended, within, ?_, ?_⟩
  · simp only [first, corpus, Corpus.census, Survey.census, Corpus.survey, Option.map_some,
      sourceFindings_voxelRange (show constants.resolve? "M" = some 1 by decide), unknown]
    rfl
  · simp only [second, corpus, Corpus.withConstants, Corpus.census, Survey.census, Corpus.survey,
      Option.map_some, sourceFindings_voxelRange (show others.resolve? "M" = some 1 by decide),
      known]
    rfl

end TileCensus
