import Mathlib.Data.List.Induction
import TileCensus.Proofs.DefinitionSteps

/-!
# What the state of a scan of definitions tells

A scan of definitions stops at some tokens and takes others as arguments. `visits` lists the tokens
it stops at, each with the state it is met in and the tokens after it, and what a scan finds is what
it finds at its visits (`sourceFindings_eq`).

The state that a token is met in sums up the visits before it. What it sums up is said here of the
visits alone: something has begun at one of them, and none after it has ended it (`Since`). So a
voxel record is awaited, a voxel block is open, or a range has its first tile. The law at the end
(`tells_of_split`) says that every part of the state tells what it should.
-/

namespace TileCensus.Definition

open Script

/-! ## Visits -/

/-- A token that a scan stops at, with the state before it and the tokens after it. -/
structure Visit where
  state : State
  token : Token
  rest : List Token

/-- What a scan does at a visit. -/
def Visit.step (context : Context) (visit : Visit) : Step :=
  Definition.step context visit.state visit.token visit.rest

/-- The argument after the token of a visit. -/
def Visit.argument (context : Context) (visit : Visit) : Argument :=
  readArgument context visit.token visit.rest

/-- The visits of a scan from a state on. -/
def visits (context : Context) (state : State) (tokens : List Token) : List Visit :=
  match tokens with
  | [] => []
  | token :: tokens =>
    let step := step context state token tokens
    ⟨state, token, tokens⟩ :: visits context step.state step.rest
termination_by tokens.length
decreasing_by exact Nat.lt_succ_of_le (step_rest_length ..)

/-- The visits of the scan of a file. -/
def sourceVisits (maxTiles : Nat) (constants : Constants) (source : Source) : List Visit :=
  visits ⟨source.path, maxTiles, constants⟩ State.initial (tokens source.text)

/-- What is found at some visits, in order. -/
def foundAt (context : Context) (visits : List Visit) : List (Finding Target) :=
  visits.flatMap fun visit => (visit.step context).findings

theorem scanFrom_eq_foundAt (context : Context) (state : State) (tokens : List Token) :
    scanFrom context [] state tokens = foundAt context (visits context state tokens) := by
  fun_induction visits context state tokens with
  | case1 state => rw [scanFrom, foundAt, List.flatMap_nil, List.reverse_nil]
  | case2 state token tokens step ih =>
    rw [scanFrom_cons, foundAt, List.flatMap_cons, ← foundAt, ← ih]
    rfl

/-- A scan of a file finds what it finds at its visits. -/
theorem sourceFindings_eq (maxTiles : Nat) (constants : Constants) (source : Source) :
    sourceFindings maxTiles constants source =
      foundAt ⟨source.path, maxTiles, constants⟩ (sourceVisits maxTiles constants source) :=
  scanFrom_eq_foundAt ..

theorem foundAt_append_cons (context : Context) (earlier : List Visit) (visit : Visit)
    (later : List Visit) :
    foundAt context (earlier ++ visit :: later) =
      foundAt context earlier ++ (visit.step context).findings ++ foundAt context later := by
  rw [foundAt, List.flatMap_append, List.flatMap_cons, List.append_assoc]
  rfl

/-- What every visit hands on to the next one holds of all visits with those before them. -/
theorem holds_of_split {context : Context} (Holds : List Visit → State → Prop)
    (next : ∀ history visit, Holds history visit.state →
      Holds (history ++ [visit]) (visit.step context).state)
    {history : List Visit} {state : State} (start : Holds history state) {tokens : List Token}
    {earlier later : List Visit} {visit : Visit}
    (split : visits context state tokens = earlier ++ visit :: later) :
    Holds (history ++ earlier) visit.state := by
  induction earlier generalizing history state tokens with
  | nil =>
    cases tokens with
    | nil =>
      rw [visits] at split
      cases split
    | cons token tokens =>
      rw [visits] at split
      obtain ⟨rfl, -⟩ := List.cons_eq_cons.mp split
      rw [List.append_nil]
      exact start
  | cons first earlier ih =>
    cases tokens with
    | nil =>
      rw [visits] at split
      cases split
    | cons token tokens =>
      rw [visits] at split
      obtain ⟨rfl, after⟩ := List.cons_eq_cons.mp split
      have holds := ih (next history ⟨state, token, tokens⟩ start) after
      rw [List.append_assoc] at holds
      exact holds

/-! ## What has begun and not ended -/

section Since

variable {α : Type}

/-- Something has begun at one of some items, and none after that has ended it. Both are asked of
an item with those before it. -/
def Since (begins keeps : List α → α → Prop) (history : List α) : Prop :=
  ∃ before item between, history = before ++ item :: between ∧ begins before item ∧
    ∀ part next rest, between = part ++ next :: rest → keeps (before ++ item :: part) next

variable {begins begins' keeps keeps' : List α → α → Prop} {history : List α} {item : α}

theorem not_since_nil : ¬Since begins keeps [] := by
  intro since
  obtain ⟨before, item, between, split, -⟩ := since
  exact List.append_ne_nil_of_right_ne_nil before (List.cons_ne_nil item between) split.symm

/-- With one more item: it begins there, or it has begun and goes on. -/
theorem since_concat :
    Since begins keeps (history ++ [item]) ↔
      begins history item ∨ Since begins keeps history ∧ keeps history item := by
  constructor
  · intro since
    obtain ⟨before, first, between, split, starts, kept⟩ := since
    cases between using List.reverseRecOn with
    | nil =>
      obtain ⟨rfl, rfl⟩ := List.append_singleton_inj.mp split
      exact .inl starts
    | append_singleton between last =>
      have split' : history ++ [item] = (before ++ first :: between) ++ [last] := by
        rw [split, List.append_assoc, List.cons_append]
      obtain ⟨rfl, rfl⟩ := List.append_singleton_inj.mp split'
      refine .inr ⟨⟨before, first, between, rfl, starts, ?_⟩, kept between item [] rfl⟩
      intro part next rest inside
      refine kept part next (rest ++ [item]) ?_
      rw [inside, List.append_assoc, List.cons_append]
  · intro cases
    obtain starts | ⟨since, keep⟩ := cases
    · refine ⟨history, item, [], rfl, starts, ?_⟩
      intro part next rest split
      exact absurd split.symm (List.append_ne_nil_of_right_ne_nil part (List.cons_ne_nil next rest))
    · obtain ⟨before, first, between, rfl, starts, kept⟩ := since
      refine ⟨before, first, between ++ [item], by simp, starts, ?_⟩
      intro part next rest split
      cases rest using List.reverseRecOn with
      | nil =>
        obtain ⟨rfl, rfl⟩ := List.append_singleton_inj.mp split
        exact keep
      | append_singleton rest last =>
        have split' : between ++ [item] = (part ++ next :: rest) ++ [last] := by
          rw [split, List.append_assoc, List.cons_append]
        obtain ⟨inside, -⟩ := List.append_singleton_inj.mp split'
        exact kept part next rest inside

/-- Two things of which each ends the other when it begins can go on together only if they have
begun together. -/
theorem Since.begins_both (first : Since begins keeps history)
    (second : Since begins' keeps' history)
    (ends : ∀ before item, begins before item → ¬keeps' before item)
    (ends' : ∀ before item, begins' before item → ¬keeps before item) :
    ∃ before item, begins before item ∧ begins' before item := by
  induction history using List.reverseRecOn with
  | nil => exact absurd first not_since_nil
  | append_singleton history item ih =>
    obtain starts | ⟨first, keep⟩ := since_concat.mp first
    · obtain starts' | ⟨-, keep'⟩ := since_concat.mp second
      · exact ⟨history, item, starts, starts'⟩
      · exact absurd keep' (ends history item starts)
    · obtain starts' | ⟨second, -⟩ := since_concat.mp second
      · exact absurd keep (ends' history item starts')
      · exact ih first second

end Since

/-! ## Records and blocks -/

/-- How many blocks are open after a word that is met with `depth` of them open. -/
def nest (depth : Nat) (word : String) : Nat :=
  if word = "\x7b" then depth + 1 else if word = "\x7d" then depth - 1 else depth

/-- How many blocks are open after some visits. A closing brace outside all blocks closes none. -/
def nesting (history : List Visit) : Nat :=
  history.foldl (fun depth visit => nest depth visit.token.word) 0

theorem nesting_concat (history : List Visit) (visit : Visit) :
    nesting (history ++ [visit]) = nest (nesting history) visit.token.word := by
  rw [nesting, List.foldl_append]
  rfl

/-- A voxel record outside all blocks awaits its block: nothing has come since that takes the
wait back, and no block has begun. -/
def VoxelAwaited : List Visit → Prop :=
  Since (fun before visit => visit.token.word = "voxel" ∧ nesting before = 0)
    fun _ visit => visit.token.word ∉ ["\x7b", "tilefromtexture", "animtilerange"]

/-- A block that a voxel record awaited has begun outside all blocks and is still open. -/
def InVoxelBlock : List Visit → Prop :=
  Since
    (fun before visit =>
      visit.token.word = "\x7b" ∧ nesting before = 0 ∧ VoxelAwaited before)
    fun before visit => nesting (before ++ [visit]) ≠ 0

/-- A range has begun in the voxel block that is still open, with the argument that its `tile0`
has, and neither another one nor its end has come since. -/
def RangeBegun (context : Context) (first : Option Int64) : List Visit → Prop :=
  Since
    (fun before visit =>
      visit.token.word = "tile0" ∧ InVoxelBlock before ∧ (visit.argument context).value = first)
    fun before visit =>
      visit.token.word ≠ "tile0" ∧ visit.token.word ≠ "tile1" ∧ nesting (before ++ [visit]) ≠ 0

/-- The argument of the `tile0` that has begun a range is one. -/
theorem RangeBegun.unique {context : Context} {first second : Option Int64} {history : List Visit}
    (begun : RangeBegun context first history) (begun' : RangeBegun context second history) :
    first = second := by
  obtain ⟨before, visit, ⟨-, -, value⟩, -, -, value'⟩ :=
    Since.begins_both begun begun' (fun _ _ starts kept => kept.1 starts.1)
      (fun _ _ starts kept => kept.1 starts.1)
  exact value.symm.trans value'

/-! ## Keywords -/

/-- The word of a keyword. -/
def Keyword.word : Keyword → String
  | openBlock => "\x7b"
  | closeBlock => "\x7d"
  | tileFromTexture => "tilefromtexture"
  | animTileRange => "animtilerange"
  | voxel => "voxel"
  | tile => "tile"
  | tile0 => "tile0"
  | tile1 => "tile1"

/-- Where a keyword counts as one. -/
def Keyword.CountsIn (state : State) : Keyword → Prop
  | openBlock | closeBlock => True
  | tileFromTexture | animTileRange | voxel => state.depth = 0
  | tile | tile0 | tile1 => state.voxelDepth.isSome = true

theorem keyword?_eq_some_iff {state : State} {word : String} {keyword : Keyword} :
    state.keyword? word = some keyword ↔ word = keyword.word ∧ keyword.CountsIn state := by
  constructor
  · intro known
    unfold State.keyword? at known
    split at known
    case h_9 => cases known
    all_goals
      simp only [Option.ite_none_right_eq_some, Option.some.injEq] at known
      grind [Keyword.word, Keyword.CountsIn]
  · intro counts
    obtain ⟨rfl, counts⟩ := counts
    cases keyword with
    | openBlock | closeBlock => rfl
    | tileFromTexture | animTileRange | voxel | tile | tile0 | tile1 => exact if_pos counts

theorem keyword?_eq_none_iff {state : State} {word : String} :
    state.keyword? word = none ↔ ∀ keyword : Keyword, word = keyword.word →
      ¬keyword.CountsIn state := by
  rw [Option.eq_none_iff_forall_ne_some]
  simp only [ne_eq, keyword?_eq_some_iff, not_and]

/-- The state after a token, by the keyword it is and the value of the argument after it. -/
def State.after (state : State) (keyword? : Option Keyword) (value : Option Int64) : State :=
  match keyword? with
  | some .openBlock => state.openBlock
  | some .closeBlock => state.closeBlock
  | some .tileFromTexture | some .animTileRange => { state with pendingVoxel := false }
  | some .voxel => { state with pendingVoxel := true }
  | some .tile0 => { state with tile0 := value }
  | some .tile1 => { state with tile0 := none }
  | some .tile | none => state

theorem state_step (context : Context) (state : State) (token : Token) (tokens : List Token) :
    (step context state token tokens).state =
      state.after (state.keyword? token.word) (readArgument context token tokens).value := by
  unfold step
  cases state.keyword? token.word with
  | none => rfl
  | some keyword => cases keyword <;> rfl

/-- What is awaited is awaited outside all blocks, a voxel block is the outermost of those that are
open, and a tile is remembered only in one. -/
structure State.Coherent (state : State) : Prop where
  awaited : state.pendingVoxel = true → state.depth = 0
  block : state.voxelDepth = none ∨ state.voxelDepth = some 1 ∧ state.depth ≠ 0
  memory : ∀ first, state.tile0 = some first → state.voxelDepth.isSome = true

/-- What a word with a value after it makes of a state. Each part begins something or goes on as it
was, unless the word ends it. -/
structure State.Follows (state : State) (word : String) (value : Option Int64) (after : State) :
    Prop where
  coherent : after.Coherent
  depth : after.depth = nest state.depth word
  awaited : after.pendingVoxel = true ↔
    word = "voxel" ∧ state.depth = 0 ∨
      state.pendingVoxel = true ∧ word ∉ ["\x7b", "tilefromtexture", "animtilerange"]
  block : after.voxelDepth.isSome = true ↔
    word = "\x7b" ∧ state.depth = 0 ∧ state.pendingVoxel = true ∨
      state.voxelDepth.isSome = true ∧ nest state.depth word ≠ 0
  memory : ∀ first, after.tile0 = some first ↔
    word = "tile0" ∧ state.voxelDepth.isSome = true ∧ value = some first ∨
      state.tile0 = some first ∧ word ≠ "tile0" ∧ word ≠ "tile1" ∧ nest state.depth word ≠ 0

namespace State.Coherent

variable {state : State}

theorem follows_openBlock (coherent : state.Coherent) (value : Option Int64) :
    state.Follows "\x7b" value state.openBlock := by
  obtain ⟨awaited, block, memory⟩ := coherent
  constructor
  · constructor <;> grind [openBlock]
  · rfl
  all_goals grind [openBlock, nest]

theorem follows_closeBlock (coherent : state.Coherent) (value : Option Int64) :
    state.Follows "\x7d" value state.closeBlock := by
  -- the brace closes the voxel block if it is the only one that is open
  obtain ⟨awaited, absent | ⟨present, deep⟩, memory⟩ := coherent
  · constructor
    · constructor <;> grind [closeBlock]
    all_goals grind [closeBlock, nest]
  · constructor
    · constructor <;> grind [closeBlock]
    all_goals grind [closeBlock, nest]

theorem follows (coherent : state.Coherent) (word : String) (value : Option Int64) :
    state.Follows word value (state.after (state.keyword? word) value) := by
  cases known : state.keyword? word with
  | none =>
    -- a word that is no keyword here may be one where the state is another
    have passed := keyword?_eq_none_iff.mp known
    have opens : word ≠ "\x7b" := fun same => passed .openBlock same trivial
    have closes : word ≠ "\x7d" := fun same => passed .closeBlock same trivial
    have textures : word = "tilefromtexture" → state.depth ≠ 0 := passed .tileFromTexture
    have animates : word = "animtilerange" → state.depth ≠ 0 := passed .animTileRange
    have awaits : word = "voxel" → state.depth ≠ 0 := passed .voxel
    have begins : word = "tile0" → ¬state.voxelDepth.isSome = true := passed .tile0
    have ends : word = "tile1" → ¬state.voxelDepth.isSome = true := passed .tile1
    obtain ⟨awaited, block, memory⟩ := coherent
    constructor <;> grind [State.after, nest, State.Coherent]
  | some keyword =>
    obtain ⟨rfl, counts⟩ := keyword?_eq_some_iff.mp known
    cases keyword with
    | openBlock => exact coherent.follows_openBlock value
    | closeBlock => exact coherent.follows_closeBlock value
    | tileFromTexture | animTileRange | voxel | tile | tile0 | tile1 =>
      obtain ⟨awaited, block, memory⟩ := coherent
      simp only [Keyword.CountsIn] at counts
      constructor <;> grind [State.after, nest, State.Coherent, Keyword.word]

end State.Coherent

/-! ## The history of a state -/

/-- A state tells what the visits before it come to. -/
structure Tells (context : Context) (history : List Visit) (state : State) : Prop where
  coherent : state.Coherent
  depth : state.depth = nesting history
  awaited : state.pendingVoxel = true ↔ VoxelAwaited history
  block : state.voxelDepth.isSome = true ↔ InVoxelBlock history
  memory : ∀ first, state.tile0 = some first ↔ RangeBegun context (some first) history

theorem tells_initial (context : Context) : Tells context [] State.initial where
  coherent := ⟨nofun, .inl rfl, nofun⟩
  depth := rfl
  awaited := iff_of_false nofun not_since_nil
  block := iff_of_false nofun not_since_nil
  memory _ := iff_of_false nofun not_since_nil

theorem Tells.next {context : Context} {history : List Visit} {visit : Visit}
    (tells : Tells context history visit.state) :
    Tells context (history ++ [visit]) (visit.step context).state := by
  have follows := tells.coherent.follows visit.token.word (visit.argument context).value
  rw [Visit.step, state_step]
  constructor
  · exact follows.coherent
  · rw [nesting_concat, ← tells.depth]
    exact follows.depth
  · rw [VoxelAwaited, since_concat, ← VoxelAwaited, ← tells.awaited, ← tells.depth]
    exact follows.awaited
  · rw [InVoxelBlock, since_concat, ← InVoxelBlock, nesting_concat, ← tells.awaited, ← tells.block,
      ← tells.depth]
    exact follows.block
  · intro first
    rw [RangeBegun, since_concat, ← RangeBegun, nesting_concat, ← tells.block, ← tells.memory,
      ← tells.depth]
    exact follows.memory first

/-- The state that a scan meets a token in tells what the visits before come to. -/
theorem tells_of_split {context : Context} {tokens : List Token} {earlier later : List Visit}
    {visit : Visit} (split : visits context State.initial tokens = earlier ++ visit :: later) :
    Tells context earlier visit.state :=
  holds_of_split (Tells context) (fun _ _ => Tells.next) (tells_initial context) split

end TileCensus.Definition
