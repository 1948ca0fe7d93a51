import Mathlib
import TileCensus.Proofs.DefinitionHistory

/-!
# Open blocks

A scan of definitions counts how many blocks are open, and a closing brace outside all blocks counts
for nothing. What it has counted is said here of the tokens alone: a block is open unless, somewhere
after its opening brace, more closing braces have come than opening ones (`unclosed`).

The states that a scan comes to are `Reached`. All but the last of them are those that it meets its
tokens in (`Reached.cons_iff_mem_visits`). A step takes some tokens as arguments and does not look
at them again, but no braces, so the count is right for all tokens so far and not just for those
that the scan has stopped at. With the coherence of the state that makes the invariant of every scan
(`reached_invariant`).
-/

namespace TileCensus.Definition

open Script

/-! ## Braces without a partner -/

section Braces

variable {token : Token} {tokens rest : List Token} {depth : Nat}

/-- How many opening braces there are among tokens. -/
def openings (tokens : List Token) : Nat := tokens.countP fun token => token.word = "\x7b"

/-- How many closing braces there are among tokens. -/
def closings (tokens : List Token) : Nat := tokens.countP fun token => token.word = "\x7d"

/-- Some tokens close more blocks than are open: up to one of them, they have more closing braces
than opening ones and `depth` together. -/
def ClosesBelow (depth : Nat) (tokens : List Token) : Prop :=
  ∃ front, front <+: tokens ∧ openings front + depth < closings front

instance (depth : Nat) (tokens : List Token) : Decidable (ClosesBelow depth tokens) :=
  decidable_of_iff (∃ front ∈ tokens.inits, openings front + depth < closings front) <| by
    simp only [List.mem_inits, ClosesBelow]

/-- How many of the opening braces among tokens are not closed by one of the tokens after them. -/
def unclosed : List Token → Nat
  | [] => 0
  | token :: rest =>
    unclosed rest + if token.word = "\x7b" ∧ ¬ClosesBelow 0 rest then 1 else 0

theorem openings_cons (token : Token) (rest : List Token) :
    openings (token :: rest) = openings rest + if token.word = "\x7b" then 1 else 0 := by
  simp [openings, List.countP_cons]

theorem closings_cons (token : Token) (rest : List Token) :
    closings (token :: rest) = closings rest + if token.word = "\x7d" then 1 else 0 := by
  simp [closings, List.countP_cons]

theorem not_closesBelow_nil : ¬ClosesBelow depth [] := by
  intro closes
  obtain ⟨front, begins, more⟩ := closes
  rw [List.prefix_nil.mp begins] at more
  exact Nat.not_lt_zero _ more

/-- No tokens at all close nothing, so the first one counts. -/
theorem closesBelow_cons_iff :
    ClosesBelow depth (token :: rest) ↔
      ∃ front, front <+: rest ∧
        openings (token :: front) + depth < closings (token :: front) := by
  constructor
  · intro closes
    obtain ⟨front, begins, more⟩ := closes
    cases front with
    | nil => exact absurd more (Nat.not_lt_zero _)
    | cons first front =>
      obtain ⟨rfl, inside⟩ := List.cons_prefix_cons.mp begins
      exact ⟨front, inside, more⟩
  · intro closes
    obtain ⟨front, begins, more⟩ := closes
    exact ⟨token :: front, List.cons_prefix_cons.mpr ⟨rfl, begins⟩, more⟩

theorem closesBelow_open (opens : token.word = "\x7b") :
    ClosesBelow depth (token :: rest) ↔ ClosesBelow (depth + 1) rest := by
  have other : "\x7b" ≠ "\x7d" := by decide
  rw [closesBelow_cons_iff, ClosesBelow]
  refine exists_congr fun front => and_congr_right fun _ => ?_
  rw [openings_cons, closings_cons, opens, if_pos rfl, if_neg other]
  omega

theorem closesBelow_close (closes : token.word = "\x7d") :
    ClosesBelow (depth + 1) (token :: rest) ↔ ClosesBelow depth rest := by
  have other : "\x7d" ≠ "\x7b" := by decide
  rw [closesBelow_cons_iff, ClosesBelow]
  refine exists_congr fun front => and_congr_right fun _ => ?_
  rw [openings_cons, closings_cons, closes, if_neg other, if_pos rfl]
  omega

theorem closesBelow_zero_close (closes : token.word = "\x7d") : ClosesBelow 0 (token :: rest) := by
  have other : "\x7d" ≠ "\x7b" := by decide
  refine closesBelow_cons_iff.mpr ⟨[], List.nil_prefix, ?_⟩
  rw [openings_cons, closings_cons, closes, if_neg other, if_pos rfl]
  exact Nat.zero_lt_one

theorem closesBelow_other (opens : token.word ≠ "\x7b") (closes : token.word ≠ "\x7d") :
    ClosesBelow depth (token :: rest) ↔ ClosesBelow depth rest := by
  rw [closesBelow_cons_iff, ClosesBelow]
  refine exists_congr fun front => and_congr_right fun _ => ?_
  rw [openings_cons, closings_cons, if_neg opens, if_neg closes]
  rfl

/-- How many blocks are open after some tokens that are met with `depth` of them open. -/
def depthAfter (depth : Nat) (tokens : List Token) : Nat :=
  tokens.foldl (fun depth token => nest depth token.word) depth

theorem depthAfter_cons (depth : Nat) (token : Token) (rest : List Token) :
    depthAfter depth (token :: rest) = depthAfter (nest depth token.word) rest := rfl

/-- A block more that is open before some tokens is one more that is open after them, unless they
close it. -/
theorem depthAfter_succ (depth : Nat) (tokens : List Token) :
    depthAfter (depth + 1) tokens =
      depthAfter depth tokens + if ClosesBelow depth tokens then 0 else 1 := by
  induction tokens generalizing depth with
  | nil =>
    rw [if_neg not_closesBelow_nil]
    rfl
  | cons token rest ih =>
    rw [depthAfter_cons, depthAfter_cons]
    by_cases opens : token.word = "\x7b"
    · simp only [nest, opens, if_true, ih (depth + 1), closesBelow_open opens]
    by_cases closes : token.word = "\x7d"
    · cases depth with
      | zero => simp [nest, closes, closesBelow_zero_close closes]
      | succ depth => simp [nest, closes, ih depth, closesBelow_close closes]
    · simp only [nest, opens, closes, if_false, ih depth, closesBelow_other opens closes]

theorem depthAfter_zero (tokens : List Token) : depthAfter 0 tokens = unclosed tokens := by
  induction tokens with
  | nil => rfl
  | cons token rest ih =>
    rw [depthAfter_cons, unclosed]
    by_cases opens : token.word = "\x7b"
    · simp [nest, opens, depthAfter_succ, ih]
    · by_cases closes : token.word = "\x7d"
      · simp [nest, closes, ih]
      · simp [nest, opens, closes, ih]

/-- With one more token there is one more open block, or one less, or as many as before. -/
theorem unclosed_concat (tokens : List Token) (token : Token) :
    unclosed (tokens ++ [token]) = nest (unclosed tokens) token.word := by
  rw [← depthAfter_zero, ← depthAfter_zero, depthAfter, List.foldl_append]
  rfl

example : unclosed [⟨"\x7d", 1⟩, ⟨"\x7b", 1⟩, ⟨"\x7b", 2⟩, ⟨"\x7d", 2⟩] = 1 := by decide

end Braces

/-! ## Arguments -/

/-- Arguments open and close no blocks. -/
theorem TakesArguments.exists_unclosed_eq {keyword : Token} {tokens rest : List Token}
    (takes : TakesArguments keyword tokens rest) :
    ∃ arguments, tokens = arguments ++ rest ∧
      ∀ before, unclosed (before ++ arguments) = unclosed before := by
  obtain ⟨arguments, split, plain⟩ := takes
  refine ⟨arguments, split, fun before => ?_⟩
  clear split
  induction arguments using List.reverseRecOn with
  | nil => rw [List.append_nil]
  | append_singleton arguments last ih =>
    obtain ⟨plain, final⟩ := List.forall_mem_append.mp plain
    obtain ⟨-, opens, closes⟩ := List.forall_mem_singleton.mp final
    rw [← List.append_assoc, unclosed_concat, nest, if_neg opens, if_neg closes, ih plain]

/-! ## The states of a scan -/

/-- A scan of tokens comes to a state, before the first token, between two steps or at the end, and
then has some of the tokens left. -/
inductive Reached (context : Context) (tokens : List Token) : State → List Token → Prop where
  | start : Reached context tokens State.initial tokens
  | next {state : State} {token : Token} {rest : List Token}
      (reached : Reached context tokens state (token :: rest)) :
      Reached context tokens (step context state token rest).state
        (step context state token rest).rest

namespace Reached

variable {context : Context} {tokens left : List Token} {state : State}

/-- The visits that a scan has left in a state are the last ones of all that it makes. -/
theorem exists_visits_eq (reached : Reached context tokens state left) :
    ∃ earlier, visits context State.initial tokens = earlier ++ visits context state left := by
  induction reached with
  | start => exact ⟨[], rfl⟩
  | @next state token rest _ ih =>
    obtain ⟨earlier, split⟩ := ih
    refine ⟨earlier ++ [⟨state, token, rest⟩], ?_⟩
    rw [split, visits, List.append_assoc]
    rfl

theorem of_mem_visits (reached : Reached context tokens state left) {visit : Visit}
    (mem : visit ∈ visits context state left) :
    Reached context tokens visit.state (visit.token :: visit.rest) := by
  fun_induction visits context state left with
  | case1 => exact absurd mem List.not_mem_nil
  | case2 state token rest step ih =>
    obtain rfl | mem := List.mem_cons.mp mem
    · exact reached
    · exact ih reached.next mem

/-- The states that a scan meets its tokens in are those it comes to, but for the last one. -/
theorem cons_iff_mem_visits {token : Token} {rest : List Token} :
    Reached context tokens state (token :: rest) ↔
      ⟨state, token, rest⟩ ∈ visits context State.initial tokens := by
  constructor
  · intro reached
    obtain ⟨earlier, split⟩ := reached.exists_visits_eq
    rw [split, visits]
    exact List.mem_append_right earlier List.mem_cons_self
  · exact start.of_mem_visits

theorem coherent (reached : Reached context tokens state left) : state.Coherent := by
  induction reached with
  | start => exact (tells_initial context).coherent
  | @next state token rest _ ih =>
    rw [state_step]
    exact (ih.follows token.word _).coherent

/-- The blocks that are open in a state are those that the tokens up to there have opened and not
closed. -/
theorem exists_unclosed_eq_depth (reached : Reached context tokens state left) :
    ∃ taken, tokens = taken ++ left ∧ state.depth = unclosed taken := by
  induction reached with
  | start => exact ⟨[], rfl, rfl⟩
  | @next state token rest before ih =>
    obtain ⟨taken, split, depth⟩ := ih
    obtain ⟨arguments, after, same⟩ :=
      (takesArguments_step context token rest state).exists_unclosed_eq
    refine ⟨taken ++ token :: arguments, ?_, ?_⟩
    · rw [split, List.append_assoc, List.cons_append, ← after]
    · have follows :=
        before.coherent.follows token.word (readArgument context token rest).value
      rw [state_step, follows.depth, depth, ← unclosed_concat, ← same, List.append_assoc]
      rfl

end Reached

/-- In every state that a scan comes to, a voxel record is awaited outside all blocks only, a voxel
block is the outermost of the open ones, a tile is remembered inside it only, and the depth is the
number of opening braces so far that are not closed, for a step takes no brace with its keyword. -/
theorem reached_invariant {context : Context} {tokens taken left : List Token} {state : State}
    (reached : Reached context tokens state left) (split : tokens = taken ++ left) :
    (state.pendingVoxel = true → state.depth = 0 ∧ state.voxelDepth = none) ∧
      (state.voxelDepth = none ∨ state.voxelDepth = some 1 ∧ 1 ≤ state.depth) ∧
      (∀ first, state.tile0 = some first → state.voxelDepth = some 1) ∧
      state.depth = unclosed taken ∧
      ∀ keyword rest, left = keyword :: rest →
        TakesArguments keyword rest (step context state keyword rest).rest := by
  obtain ⟨awaited, block, memory⟩ := reached.coherent
  refine ⟨?_, ?_, ?_, ?_, ?_⟩
  · intro pending
    have top := awaited pending
    obtain absent | ⟨-, deep⟩ := block
    · exact ⟨top, absent⟩
    · exact absurd top deep
  · exact block.imp_right fun ⟨present, deep⟩ => ⟨present, Nat.one_le_iff_ne_zero.mpr deep⟩
  · intro first remembered
    have inside := memory first remembered
    obtain absent | ⟨present, -⟩ := block
    · simp [absent] at inside
    · exact present
  · obtain ⟨front, split', depth⟩ := reached.exists_unclosed_eq_depth
    obtain rfl : front = taken := List.append_cancel_right (split'.symm.trans split)
    exact depth
  · intro keyword rest _
    exact takesArguments_step context keyword rest state

/-- A closing brace outside all blocks, a voxel block that is not closed, and a block in it. -/
def strayBrace : List Token :=
  [⟨"\x7d", 1⟩, ⟨"voxel", 1⟩, ⟨"\x7b", 1⟩, ⟨"tile0", 1⟩, ⟨"5", 1⟩, ⟨"\x7b", 2⟩, ⟨"tile1", 2⟩,
    ⟨"6", 2⟩]

/-- Before the last keyword two blocks are open, the first brace notwithstanding. -/
theorem reached_invariant_strayBrace :
    let context : Context := ⟨"tiles.def", 64, ∅⟩
    let state : State := ⟨2, false, some 1, some 5⟩
    Reached context strayBrace state [⟨"tile1", 2⟩, ⟨"6", 2⟩] ∧
      strayBrace = strayBrace.take 6 ++ [⟨"tile1", 2⟩, ⟨"6", 2⟩] ∧
      state.tile0 = some 5 ∧ state.voxelDepth = some 1 ∧ unclosed (strayBrace.take 6) = 2 ∧
      TakesArguments ⟨"tile1", 2⟩ [⟨"6", 2⟩] (step context state ⟨"tile1", 2⟩ [⟨"6", 2⟩]).rest := by
  intro context state
  have met : (visits context State.initial strayBrace)[5]? =
      some ⟨state, ⟨"tile1", 2⟩, [⟨"6", 2⟩]⟩ := by cbv
  have reached : Reached context strayBrace state [⟨"tile1", 2⟩, ⟨"6", 2⟩] :=
    Reached.cons_iff_mem_visits.mpr (List.mem_of_getElem? met)
  have split : strayBrace = strayBrace.take 6 ++ [⟨"tile1", 2⟩, ⟨"6", 2⟩] := rfl
  obtain ⟨-, -, memory, depth, takes⟩ := reached_invariant reached split
  exact ⟨reached, split, rfl, memory 5 rfl, depth.symm, takes _ _ rfl⟩

end TileCensus.Definition
