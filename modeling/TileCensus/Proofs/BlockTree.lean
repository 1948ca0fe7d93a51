import TileCensus.Definition.Scan
import TileCensus.Proofs.TileSpace

/-!
# Definitions as a tree of blocks

Scanning definitions goes through their tokens once and keeps a counter, a flag and a depth. What it
does is said here without these, by a walk over the tree that the braces make: the top level takes
tiles from `tilefromtexture` and `animtilerange` and enters the blocks of `voxel`, and such a block
is walked whole, with the blocks in it, while one tile is remembered.

The scan stands in one of three kinds of places (`Place`), and at each of them what is left to find
is what the walk finds on the levels that are still open (`Place.events`). Every step keeps that
(`step_place`), so the scan finds what the walk over the whole tree does
(`sourceFindings_refines_walk`).
-/

namespace TileCensus.Definition

open Script Tile

/-! ## The tree -/

/-- The words and blocks on one level, in order. -/
inductive Forest where
  | nil
  | word (token : Token) (rest : Forest)
  | block (inner rest : Forest)

/-- The levels that tokens stand on: what comes before the first closing brace that has no opening
one among them, and what follows each such brace. -/
structure Levels where
  level : Forest
  outer : List Forest

namespace Levels

/-- An opening brace before tokens makes a block of their first level. A block that is not closed
extends to the end. -/
def openBlock (levels : Levels) : Levels :=
  match levels.outer with
  | [] => ⟨.block levels.level .nil, []⟩
  | next :: outer => ⟨.block levels.level next, outer⟩

def ofTokens : List Token → Levels
  | [] => ⟨.nil, []⟩
  | token :: tokens =>
    let levels := ofTokens tokens
    if token.word = "\x7b" then levels.openBlock
    else if token.word = "\x7d" then ⟨.nil, levels.level :: levels.outer⟩
    else ⟨.word token levels.level, levels.outer⟩

variable {token : Token}

theorem ofTokens_open (opens : token.word = "\x7b") (tokens : List Token) :
    ofTokens (token :: tokens) = (ofTokens tokens).openBlock := by
  rw [ofTokens, if_pos opens]

theorem ofTokens_close (closes : token.word = "\x7d") (tokens : List Token) :
    ofTokens (token :: tokens) = ⟨.nil, (ofTokens tokens).level :: (ofTokens tokens).outer⟩ := by
  rw [ofTokens, closes, if_neg (by decide), if_pos rfl]

theorem ofTokens_word (opens : token.word ≠ "\x7b") (closes : token.word ≠ "\x7d")
    (tokens : List Token) :
    ofTokens (token :: tokens) = ⟨.word token (ofTokens tokens).level, (ofTokens tokens).outer⟩ := by
  rw [ofTokens, if_neg opens, if_neg closes]

theorem exists_level_openBlock (levels : Levels) :
    ∃ rest, levels.openBlock.level = .block levels.level rest := by
  rw [openBlock]
  split
  · exact ⟨_, rfl⟩
  · exact ⟨_, rfl⟩

end Levels

/-! ## The walk -/

/-- What a walk comes upon. A record marks the tiles from `first` to `last`. -/
inductive Event where
  | problem (diagnostic : Diagnostic)
  | record (target : Target) (keyword : Token) (first last : Int64)

/-- What is taken from the beginning of a forest. -/
structure Taken (α : Type) where
  value : α
  events : List Event
  rest : Forest

section Walk

variable (context : Context)

/-- The argument of a keyword is the very next word, if that is on the same line. -/
def argument (keyword : Token) (forest : Forest) : Taken (Option Int64) :=
  let missing := ⟨none, [.problem (missingArgument context keyword)], forest⟩
  match forest with
  | .word token rest =>
    if token.line = keyword.line then
      match context.constants.resolve? token.word with
      | some value => ⟨some value, [], rest⟩
      | none => ⟨none, [.problem (unknownArgument context keyword token)], rest⟩
    else missing
  | _ => missing

/-- A word on the top level. The value tells whether the next block is one of voxels. -/
def takeTop (pending : Bool) (keyword : Token) (rest : Forest) : Taken Bool :=
  match keyword.word with
  | "tilefromtexture" =>
    let tile := argument context keyword rest
    let records := tile.value.toList.map fun n => .record .nonempty keyword n n
    ⟨false, tile.events ++ records, tile.rest⟩
  | "animtilerange" =>
    let first := argument context keyword rest
    let last := argument context keyword first.rest
    let records := match first.value, last.value with
      | some m, some n => [.record .animation keyword m n]
      | _, _ => []
    ⟨false, first.events ++ last.events ++ records, last.rest⟩
  | "voxel" => ⟨true, [], rest⟩
  | _ => ⟨pending, [], rest⟩

/-- A word in a voxel block, at any depth. The value is the remembered tile. -/
def takeVoxel (memory : Option Int64) (keyword : Token) (rest : Forest) : Taken (Option Int64) :=
  match keyword.word with
  | "tile" =>
    let tile := argument context keyword rest
    let records := tile.value.toList.map fun n => .record .voxel keyword n n
    ⟨memory, tile.events ++ records, tile.rest⟩
  | "tile0" =>
    let first := argument context keyword rest
    ⟨first.value, first.events, first.rest⟩
  | "tile1" =>
    let last := argument context keyword rest
    let records := match memory, last.value with
      | some m, some n => [.record .voxel keyword m n]
      | none, some _ => [.problem (missingFirst context keyword)]
      | _, none => []
    ⟨none, last.events ++ records, last.rest⟩
  | _ => ⟨memory, [], rest⟩

theorem sizeOf_argument_rest (keyword : Token) (forest : Forest) :
    sizeOf (argument context keyword forest).rest ≤ sizeOf forest := by
  unfold argument
  split
  next token rest =>
    have smaller : sizeOf rest ≤ sizeOf (Forest.word token rest) := by
      simp only [Forest.word.sizeOf_spec]
      omega
    split
    next =>
      split
      · exact smaller
      · exact smaller
    next => exact Nat.le_refl _
  next => exact Nat.le_refl _

theorem sizeOf_takeTop_rest (pending : Bool) (keyword : Token) (rest : Forest) :
    sizeOf (takeTop context pending keyword rest).rest ≤ sizeOf rest := by
  unfold takeTop
  split
  · exact sizeOf_argument_rest context keyword rest
  · exact Nat.le_trans (sizeOf_argument_rest ..) (sizeOf_argument_rest ..)
  · exact Nat.le_refl _
  · exact Nat.le_refl _

theorem sizeOf_takeVoxel_rest (memory : Option Int64) (keyword : Token) (rest : Forest) :
    sizeOf (takeVoxel context memory keyword rest).rest ≤ sizeOf rest := by
  unfold takeVoxel
  split
  · exact sizeOf_argument_rest context keyword rest
  · exact sizeOf_argument_rest context keyword rest
  · exact sizeOf_argument_rest context keyword rest
  · exact Nat.le_refl _

/-- The walk over what is in a voxel block, with the remembered tile before and after it. -/
def walkVoxel (memory : Option Int64) (forest : Forest) : List Event × Option Int64 :=
  match forest with
  | .nil => ([], memory)
  | .word keyword rest =>
    let taken := takeVoxel context memory keyword rest
    let (after, memory) := walkVoxel taken.value taken.rest
    (taken.events ++ after, memory)
  | .block inner rest =>
    let (inside, memory) := walkVoxel memory inner
    let (after, memory) := walkVoxel memory rest
    (inside ++ after, memory)
termination_by sizeOf forest
decreasing_by
  · have := sizeOf_takeVoxel_rest context memory keyword rest
    simp only [Forest.word.sizeOf_spec]
    omega
  all_goals
    simp only [Forest.block.sizeOf_spec]
    omega

/-- The walk over the top level. The remembered tile of a voxel block is dropped at its end. -/
def walkTop (pending : Bool) (forest : Forest) : List Event × Bool :=
  match forest with
  | .nil => ([], pending)
  | .word keyword rest =>
    let taken := takeTop context pending keyword rest
    let (after, pending) := walkTop taken.value taken.rest
    (taken.events ++ after, pending)
  | .block inner rest =>
    let inside := if pending then (walkVoxel context none inner).1 else []
    let (after, pending) := walkTop false rest
    (inside ++ after, pending)
termination_by sizeOf forest
decreasing_by
  · have := sizeOf_takeTop_rest context pending keyword rest
    simp only [Forest.word.sizeOf_spec]
    omega
  · simp only [Forest.block.sizeOf_spec]
    omega

/-- The walk over all that stands outside blocks. A closing brace between two levels is ignored. -/
def walkLevels (pending : Bool) : List Forest → List Event
  | [] => []
  | level :: outer =>
    let (events, pending) := walkTop context pending level
    events ++ walkLevels pending outer

/-- What the walk over the tree of a file comes upon. -/
def walk (tokens : List Token) : List Event :=
  let levels := Levels.ofTokens tokens
  walkLevels context false (levels.level :: levels.outer)

end Walk

/-! ## Steps of the scan -/

/-- An event as the scan finds it. -/
def Event.finding (context : Context) : Event → Finding Target
  | problem diagnostic => .problem diagnostic
  | record target keyword first last => markTiles context target keyword first last

/-- Where a scan stands: outside blocks, in a block that is skipped, or in one of voxels. Inside a
block `above` counts the blocks around the innermost one. -/
inductive Place where
  | top (pending : Bool)
  | skipped (above : Nat)
  | voxel (above : Nat) (memory : Option Int64)

namespace Place

def state : Place → State
  | top pending => ⟨0, pending, none, none⟩
  | skipped above => ⟨above + 1, false, none, none⟩
  | voxel above memory => ⟨above + 1, false, some 1, memory⟩

/-- The place after an opening brace. -/
def opened : Place → Place
  | top false => skipped 0
  | top true => voxel 0 none
  | skipped above => skipped (above + 1)
  | voxel above memory => voxel (above + 1) memory

/-- The place after a closing brace. -/
def closed : Place → Place
  | top pending => top pending
  | skipped 0 | voxel 0 _ => top false
  | skipped (above + 1) => skipped above
  | voxel (above + 1) memory => voxel above memory

theorem state_opened (place : Place) : place.opened.state = place.state.openBlock := by
  cases place with
  | top pending => cases pending <;> rfl
  | skipped above => rfl
  | voxel above memory => rfl

theorem state_closed (place : Place) : place.closed.state = place.state.closeBlock := by
  cases place with
  | top pending => rfl
  | skipped above => cases above <;> rfl
  | voxel above memory =>
    cases above with
    | zero => rfl
    | succ above => simp [closed, state, State.closeBlock]

end Place

section Steps

variable (context : Context)

/-- The walk over the levels of a voxel block that are still open, innermost first. -/
def walkOpen (memory : Option Int64) : List Forest → List Event
  | [] => []
  | level :: outer =>
    let (events, memory) := walkVoxel context memory level
    events ++ walkOpen memory outer

/-- What is left for the walk to come upon. -/
def Place.events (place : Place) (levels : Levels) : List Event :=
  match place with
  | top pending => walkLevels context pending (levels.level :: levels.outer)
  | skipped above => walkLevels context false (levels.outer.drop above)
  | voxel above memory =>
    -- the last of the `above` levels is that of the voxel block itself, so the memory ends there
    walkOpen context memory (levels.level :: levels.outer.take above) ++
      walkLevels context false (levels.outer.drop above)

theorem Place.events_opened (place : Place) (levels : Levels) :
    place.events context levels.openBlock = place.opened.events context levels := by
  obtain ⟨level, outer⟩ := levels
  cases place with
  | top pending =>
    cases pending <;> cases outer <;>
      simp [opened, events, Levels.openBlock, walkLevels, walkTop, walkOpen]
  | skipped above =>
    cases outer <;> simp [opened, events, Levels.openBlock]
  | voxel above memory =>
    cases outer <;> simp [opened, events, Levels.openBlock, walkVoxel, walkOpen]

theorem Place.events_closed (place : Place) (levels : Levels) :
    place.events context ⟨.nil, levels.level :: levels.outer⟩ =
      place.closed.events context levels := by
  cases place with
  | top pending => simp [closed, events, walkLevels, walkTop]
  | skipped above => cases above <;> rfl
  | voxel above memory => cases above <;> simp [closed, events, walkOpen, walkVoxel]

/-- Reading an argument from tokens takes it from the level that they begin with. -/
theorem readArgument_eq (keyword : Token) (tokens : List Token) :
    let read := readArgument context keyword tokens
    let taken := argument context keyword (Levels.ofTokens tokens).level
    read.value = taken.value ∧ read.findings = taken.events.map (Event.finding context) ∧
      Levels.ofTokens read.rest = ⟨taken.rest, (Levels.ofTokens tokens).outer⟩ := by
  cases tokens with
  | nil => exact ⟨rfl, rfl, rfl⟩
  | cons token tokens =>
    -- a brace is never an argument: the level begins with a block or ends
    by_cases opens : token.word = "\x7b"
    · have refused : isArgument keyword token = false := by simp [isArgument, opens]
      obtain ⟨rest, level⟩ := (Levels.ofTokens tokens).exists_level_openBlock
      rw [← Levels.ofTokens_open opens] at level
      simp only [readArgument, refused, level, argument]
      exact ⟨rfl, rfl, by rw [← level]; rfl⟩
    by_cases closes : token.word = "\x7d"
    · have refused : isArgument keyword token = false := by simp [isArgument, closes]
      simp only [readArgument, refused, Levels.ofTokens_close closes, argument]
      exact ⟨rfl, rfl, Levels.ofTokens_close closes tokens⟩
    have accepted : isArgument keyword token = decide (token.line = keyword.line) := by
      simp [isArgument, opens, closes]
    rw [Levels.ofTokens_word opens closes]
    simp only [readArgument, accepted, decide_eq_true_eq, argument]
    split
    next => cases context.constants.resolve? token.word <;> exact ⟨rfl, rfl, rfl⟩
    next => exact ⟨rfl, rfl, Levels.ofTokens_word opens closes tokens⟩

/-- What a word does at a place. -/
def Place.take (place : Place) (keyword : Token) (rest : Forest) : Taken Place :=
  match place with
  | top pending =>
    let taken := takeTop context pending keyword rest
    ⟨top taken.value, taken.events, taken.rest⟩
  | skipped above => ⟨skipped above, [], rest⟩
  | voxel above memory =>
    let taken := takeVoxel context memory keyword rest
    ⟨voxel above taken.value, taken.events, taken.rest⟩

theorem Place.events_word (place : Place) (keyword : Token) (rest : Forest) (outer : List Forest) :
    let taken := place.take context keyword rest
    place.events context ⟨.word keyword rest, outer⟩ =
      taken.events ++ taken.value.events context ⟨taken.rest, outer⟩ := by
  cases place with
  | top pending => simp [take, events, walkLevels, walkTop]
  | skipped above => rfl
  | voxel above memory => simp [take, events, walkOpen, walkVoxel]

/-- A step of the scan leads to a place, finds some events and leaves some levels. -/
structure Leads (step : Step) (after : Place) (events : List Event) (levels : Levels) : Prop where
  state : step.state = after.state
  findings : step.findings = events.map (Event.finding context)
  levels : Levels.ofTokens step.rest = levels

variable {keyword : Token}

theorem step_top (pending : Bool) (opens : keyword.word ≠ "\x7b") (closes : keyword.word ≠ "\x7d")
    (tokens : List Token) :
    let taken := takeTop context pending keyword (Levels.ofTokens tokens).level
    Leads context (step context (Place.top pending).state keyword tokens) (.top taken.value)
      taken.events ⟨taken.rest, (Levels.ofTokens tokens).outer⟩ := by
  obtain ⟨value, findings, rest⟩ := readArgument_eq context keyword tokens
  unfold takeTop
  split
  next word =>
    have known : (Place.top pending).state.keyword? keyword.word = some .tileFromTexture := by
      rw [word]
      rfl
    rw [step, known]
    refine ⟨rfl, ?_, rest⟩
    dsimp only
    rw [List.map_append, findings, value]
    simp [Event.finding]
  next word =>
    have known : (Place.top pending).state.keyword? keyword.word = some .animTileRange := by
      rw [word]
      rfl
    -- the second argument is taken from what the first one has left, in the tokens and in the tree
    obtain ⟨value', findings', rest'⟩ :=
      readArgument_eq context keyword (readArgument context keyword tokens).rest
    rw [rest] at value' findings' rest'
    rw [step, known]
    refine ⟨rfl, ?_, rest'⟩
    dsimp only
    rw [List.map_append, List.map_append, findings, findings', value, value']
    split <;> simp [Event.finding, *]
  next word =>
    have known : (Place.top pending).state.keyword? keyword.word = some .voxel := by
      rw [word]
      rfl
    rw [step, known]
    exact ⟨rfl, rfl, rfl⟩
  next =>
    have unknown : (Place.top pending).state.keyword? keyword.word = none := by
      unfold State.keyword?
      split <;> simp_all [Place.state]
    rw [step, unknown]
    exact ⟨rfl, rfl, rfl⟩

theorem step_voxel (above : Nat) (memory : Option Int64) (opens : keyword.word ≠ "\x7b")
    (closes : keyword.word ≠ "\x7d") (tokens : List Token) :
    let taken := takeVoxel context memory keyword (Levels.ofTokens tokens).level
    Leads context (step context (Place.voxel above memory).state keyword tokens)
      (.voxel above taken.value) taken.events ⟨taken.rest, (Levels.ofTokens tokens).outer⟩ := by
  obtain ⟨value, findings, rest⟩ := readArgument_eq context keyword tokens
  unfold takeVoxel
  split
  next word =>
    have known : (Place.voxel above memory).state.keyword? keyword.word = some .tile := by
      rw [word]
      rfl
    rw [step, known]
    refine ⟨rfl, ?_, rest⟩
    dsimp only
    rw [List.map_append, findings, value]
    simp [Event.finding]
  next word =>
    have known : (Place.voxel above memory).state.keyword? keyword.word = some .tile0 := by
      rw [word]
      rfl
    rw [step, known]
    refine ⟨?_, findings, rest⟩
    dsimp only
    rw [value]
    rfl
  next word =>
    have known : (Place.voxel above memory).state.keyword? keyword.word = some .tile1 := by
      rw [word]
      rfl
    rw [step, known]
    refine ⟨rfl, ?_, rest⟩
    dsimp only [Place.state]
    rw [List.map_append, findings, value]
    split <;> simp [Event.finding, *]
  next =>
    have unknown : (Place.voxel above memory).state.keyword? keyword.word = none := by
      unfold State.keyword?
      split <;> simp_all [Place.state]
    rw [step, unknown]
    exact ⟨rfl, rfl, rfl⟩

/-- A word does at a place what it does to the tree. -/
theorem step_word (place : Place) (opens : keyword.word ≠ "\x7b") (closes : keyword.word ≠ "\x7d")
    (tokens : List Token) :
    let taken := place.take context keyword (Levels.ofTokens tokens).level
    Leads context (step context place.state keyword tokens) taken.value taken.events
      ⟨taken.rest, (Levels.ofTokens tokens).outer⟩ := by
  cases place with
  | top pending => exact step_top context pending opens closes tokens
  | skipped above =>
    have unknown : (Place.skipped above).state.keyword? keyword.word = none := by
      unfold State.keyword?
      split <;> simp_all [Place.state]
    rw [step, unknown]
    exact ⟨rfl, rfl, rfl⟩
  | voxel above memory => exact step_voxel context above memory opens closes tokens

/-- A step leads from place to place, and what it finds is the next part of what is left. -/
theorem step_place (place : Place) (token : Token) (tokens : List Token) :
    ∃ after events levels,
      Leads context (step context place.state token tokens) after events levels ∧
      place.events context (Levels.ofTokens (token :: tokens)) =
        events ++ after.events context levels := by
  by_cases opens : token.word = "\x7b"
  · have known : place.state.keyword? token.word = some .openBlock := by
      rw [opens]
      rfl
    refine ⟨place.opened, [], Levels.ofTokens tokens, ?_, ?_⟩
    · rw [step, known]
      exact ⟨place.state_opened.symm, rfl, rfl⟩
    · rw [Levels.ofTokens_open opens, place.events_opened, List.nil_append]
  by_cases closes : token.word = "\x7d"
  · have known : place.state.keyword? token.word = some .closeBlock := by
      rw [closes]
      rfl
    refine ⟨place.closed, [], Levels.ofTokens tokens, ?_, ?_⟩
    · rw [step, known]
      exact ⟨place.state_closed.symm, rfl, rfl⟩
    · rw [Levels.ofTokens_close closes, place.events_closed, List.nil_append]
  refine ⟨_, _, _, step_word context place opens closes tokens, ?_⟩
  rw [Levels.ofTokens_word opens closes, place.events_word]

/-! ## The scan -/

theorem Place.events_nil (place : Place) : place.events context (Levels.ofTokens []) = [] := by
  cases place with
  | top pending => simp [events, Levels.ofTokens, walkLevels, walkTop]
  | skipped above => simp [events, Levels.ofTokens, walkLevels]
  | voxel above memory => simp [events, Levels.ofTokens, walkOpen, walkVoxel, walkLevels]

/-- From every place a scan finds what is left for the walk. -/
theorem scanFrom_place (found : List (Finding Target)) (place : Place) (tokens : List Token) :
    scanFrom context found place.state tokens =
      found.reverse ++
        (place.events context (Levels.ofTokens tokens)).map (Event.finding context) := by
  -- along the recursion of the scan, whose steps may take several tokens
  match tokens with
  | [] => rw [scanFrom, place.events_nil, List.map_nil, List.append_nil]
  | token :: tokens =>
    obtain ⟨after, events, levels, leads, left⟩ := step_place context place token tokens
    rw [scanFrom, leads.state, scanFrom_place, leads.findings, leads.levels, left]
    simp
termination_by tokens.length
decreasing_by exact Nat.lt_succ_of_le (step_rest_length ..)

end Steps

/-! ## Refinement -/

/-- What an event has to report. A record is in order when its tiles lie in the tile space. -/
def Event.diagnostic? (context : Context) : Event → Option Diagnostic
  | problem diagnostic => some diagnostic
  | record _ keyword first last =>
    if 0 ≤ first.toInt ∧ first.toInt ≤ last.toInt + 1 ∧ last.toInt < context.maxTiles then none
    else some (recordOutOfRange context keyword (inclusiveError first last context.maxTiles))

theorem markTiles_eq_mark_iff {context : Context} {target other : Target} {keyword : Token}
    {first last : Int64} {range : Tile.Range} :
    markTiles context other keyword first last = .mark target range ↔
      other = target ∧ (inclusiveRange first last context.maxTiles).bind
        (·.within context.maxTiles) = .ok range := by
  rw [markTiles, Finding.ofRange]
  split
  next found => simp [found]
  next found => simp [found]

theorem diagnostics_map_finding {context : Context} (small : context.maxTiles < 2 ^ 63)
    (events : List Event) :
    Finding.diagnostics (events.map (Event.finding context)) =
      events.filterMap (Event.diagnostic? context) := by
  rw [Finding.diagnostics, List.filterMap_map]
  refine List.filterMap_congr fun event _ => ?_
  cases event with
  | problem diagnostic => rfl
  | record target keyword first last =>
    simp only [Function.comp_apply, Event.finding, Event.diagnostic?]
    by_cases inside : 0 ≤ first.toInt ∧ first.toInt ≤ last.toInt + 1 ∧
        last.toInt < context.maxTiles
    · obtain ⟨range, fits⟩ := (exists_inclusiveRange_within_iff small).mpr inside
      rw [if_pos inside, markTiles_eq_mark_iff.mpr ⟨rfl, fits⟩]
    · rw [if_neg inside, markTiles, Finding.ofRange, inclusiveRange_within_eq_error inside]

theorem mark_mem_map_finding_iff {context : Context} (small : context.maxTiles < 2 ^ 63)
    {events : List Event} {target : Target} {tile : Nat} :
    (∃ range, .mark target range ∈ events.map (Event.finding context) ∧ range.Contains tile ∧
        tile < context.maxTiles) ↔
      ∃ (keyword : Token) (first last : Int64), .record target keyword first last ∈ events ∧
        0 ≤ first.toInt ∧ first.toInt ≤ tile ∧ (tile : Int) ≤ last.toInt ∧
        last.toInt < context.maxTiles := by
  constructor
  · rintro ⟨range, marked, ⟨low, high⟩, -⟩
    obtain ⟨event, mem, made⟩ := List.mem_map.mp marked
    cases event with
    | problem diagnostic => cases made
    | record other keyword first last =>
      obtain ⟨rfl, fits⟩ := markTiles_eq_mark_iff.mp made
      obtain ⟨start, stop, bounds⟩ := inclusiveRange_within_eq_ok_iff.mp fits
      rw [start] at low
      exact ⟨keyword, first, last, mem, by omega⟩
  · rintro ⟨keyword, first, last, mem, nonneg, low, high, bound⟩
    obtain ⟨range, fits⟩ := (exists_inclusiveRange_within_iff small).mpr
      (show 0 ≤ first.toInt ∧ first.toInt ≤ last.toInt + 1 ∧ last.toInt < context.maxTiles by omega)
    obtain ⟨start, stop, -⟩ := inclusiveRange_within_eq_ok_iff.mp fits
    refine ⟨range, ?_, ⟨by rw [start]; exact low, by omega⟩, by omega⟩
    exact List.mem_map.mpr ⟨_, mem, markTiles_eq_mark_iff.mpr ⟨rfl, fits⟩⟩

/-- Scanning definitions comes to the same as walking their tree: it reports what the walk has to
report, in order, and each bitmap holds the tiles of the walk's records that lie in the tile
space. -/
theorem sourceFindings_refines_walk {maxTiles : Nat} (small : maxTiles < 2 ^ 63)
    (constants : Constants) (source : Source) :
    let context : Context := ⟨source.path, maxTiles, constants⟩
    let events := walk context (tokens source.text)
    let findings := sourceFindings maxTiles constants source
    Finding.diagnostics findings = events.filterMap (Event.diagnostic? context) ∧
      ∀ target, ((Tiles.ofFindings maxTiles findings).get target).size = maxTiles ∧
        ∀ tile : Nat, ((Tiles.ofFindings maxTiles findings).get target).isSet tile = true ↔
          ∃ (keyword : Token) (first last : Int64), .record target keyword first last ∈ events ∧
            0 ≤ first.toInt ∧ first.toInt ≤ tile ∧ (tile : Int) ≤ last.toInt ∧
            last.toInt < maxTiles := by
  intro context events findings
  have found : findings = events.map (Event.finding context) :=
    scanFrom_place context [] (.top false) (tokens source.text)
  refine ⟨?_, fun target => ⟨?_, fun tile => ?_⟩⟩
  · rw [found, diagnostics_map_finding small]
  · rw [Tiles.get_ofFindings, Finding.size_bitmap]
  · rw [Tiles.get_ofFindings, Finding.isSet_bitmap, found, mark_mem_map_finding_iff small]

/-- A closing brace does not take back that a voxel block is next, and in a block inside that one
the remembered tile is still known, although no brace closes either of them. -/
theorem sourceFindings_refines_walk_nested :
    8 < 2 ^ 63 ∧
      ((Tiles.ofFindings 8 (sourceFindings 8 ∅
        ⟨"tiles.def", "voxel\n\x7d\n\x7b tile0 2\n\x7b tile1 5"⟩)).get .voxel).isSet 4 = true := by
  have read : tokens "voxel\n\x7d\n\x7b tile0 2\n\x7b tile1 5" =
      [⟨"voxel", 1⟩, ⟨"\x7d", 2⟩, ⟨"\x7b", 3⟩, ⟨"tile0", 3⟩, ⟨"2", 3⟩, ⟨"\x7b", 4⟩, ⟨"tile1", 4⟩,
        ⟨"5", 4⟩] := by cbv
  have events : walk ⟨"tiles.def", 8, ∅⟩
      [⟨"voxel", 1⟩, ⟨"\x7d", 2⟩, ⟨"\x7b", 3⟩, ⟨"tile0", 3⟩, ⟨"2", 3⟩, ⟨"\x7b", 4⟩, ⟨"tile1", 4⟩,
        ⟨"5", 4⟩] = [.record .voxel ⟨"tile1", 4⟩ 2 5] := by cbv
  have small : 8 < 2 ^ 63 := by decide
  obtain ⟨-, bitmaps⟩ := sourceFindings_refines_walk small ∅
    ⟨"tiles.def", "voxel\n\x7d\n\x7b tile0 2\n\x7b tile1 5"⟩
  refine ⟨small, ((bitmaps .voxel).2 4).mpr ?_⟩
  rw [read, events]
  exact ⟨⟨"tile1", 4⟩, 2, 5, List.mem_singleton_self _, by decide⟩

end TileCensus.Definition
