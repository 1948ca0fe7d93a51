import TileCensus.Definition.Scan

/-!
# Scans of definitions by their steps

A step takes nothing with its keyword but arguments of it, so no braces and nothing from another
line (`takesArguments_step`). All that it can find there is in `Finds`: three kinds of problem, and
the tiles of a record. A scan finds nothing but what its steps find
(`exists_finds_of_mem_sourceFindings`), at keywords of the file that is scanned.

Two scans of the same tokens may stand in different states and look their arguments up in different
ways. If they stay alike from step to step and what they find in each step compares, then all that
they find compares (`compares_scanFrom`).
-/

namespace TileCensus.Definition

open Script

/-! ## Tokens that are taken -/

/-- The tokens that are taken after a keyword, up to those that are left, stand on its line and are
no braces. -/
def TakesArguments (keyword : Token) (tokens rest : List Token) : Prop :=
  ∃ arguments, tokens = arguments ++ rest ∧ ∀ argument ∈ arguments,
    argument.line = keyword.line ∧ argument.word ≠ "\x7b" ∧ argument.word ≠ "\x7d"

namespace TakesArguments

variable {keyword : Token} {tokens between rest : List Token}

theorem refl : TakesArguments keyword tokens tokens := ⟨[], rfl, nofun⟩

theorem trans (first : TakesArguments keyword tokens between)
    (second : TakesArguments keyword between rest) : TakesArguments keyword tokens rest := by
  obtain ⟨before, rfl, plain⟩ := first
  obtain ⟨after, rfl, plain'⟩ := second
  exact ⟨before ++ after, (List.append_assoc ..).symm, List.forall_mem_append.mpr ⟨plain, plain'⟩⟩

theorem suffix (takes : TakesArguments keyword tokens rest) : rest <:+ tokens := by
  obtain ⟨arguments, split, -⟩ := takes
  exact ⟨arguments, split.symm⟩

end TakesArguments

section Rest

variable (context : Context) (keyword : Token) (tokens : List Token)

theorem takesArguments_readArgument :
    TakesArguments keyword tokens (readArgument context keyword tokens).rest := by
  cases tokens with
  | nil => exact .refl
  | cons token rest =>
    simp only [readArgument]
    split
    next accepted =>
      have plain : token.line = keyword.line ∧ token.word ≠ "\x7b" ∧ token.word ≠ "\x7d" := by
        simpa [isArgument, and_assoc] using accepted
      have one : TakesArguments keyword (token :: rest) rest :=
        ⟨[token], rfl, List.forall_mem_singleton.mpr plain⟩
      split
      · exact one
      · exact one
    next => exact .refl

/-- A step takes nothing but arguments of its keyword. -/
theorem takesArguments_step (state : State) :
    TakesArguments keyword tokens (step context state keyword tokens).rest := by
  have argument := takesArguments_readArgument context keyword tokens
  unfold step
  cases state.keyword? keyword.word with
  | none => exact .refl
  | some word =>
    cases word with
    | openBlock => exact .refl
    | closeBlock => exact .refl
    | tileFromTexture => exact argument
    | animTileRange => exact argument.trans (takesArguments_readArgument ..)
    | voxel => exact .refl
    | tile => exact argument
    | tile0 => exact argument
    | tile1 => exact argument

theorem readArgument_rest_suffix : (readArgument context keyword tokens).rest <:+ tokens :=
  (takesArguments_readArgument context keyword tokens).suffix

theorem step_rest_suffix (state : State) : (step context state keyword tokens).rest <:+ tokens :=
  (takesArguments_step context keyword tokens state).suffix

end Rest

/-! ## What a step can find -/

/-- What can be found at a keyword that has some tokens after it. A record of art has one tile. -/
inductive Finds (context : Context) (keyword : Token) (tokens : List Token) :
    Finding Target → Prop where
  | missing : Finds context keyword tokens (.problem (missingArgument context keyword))
  | unknown {argument : Token} (mem : argument ∈ tokens) :
      Finds context keyword tokens (.problem (unknownArgument context keyword argument))
  | unstarted : Finds context keyword tokens (.problem (missingFirst context keyword))
  | tile (target : Target) (n : Int64) :
      Finds context keyword tokens (markTiles context target keyword n n)
  | range {target : Target} (ranged : target ≠ .nonempty) (first last : Int64) :
      Finds context keyword tokens (markTiles context target keyword first last)

section Steps

variable {context : Context} {keyword : Token} {tokens : List Token} {finding : Finding Target}

theorem Finds.of_suffix {others : List Token} (finds : Finds context keyword others finding)
    (suffix : others <:+ tokens) : Finds context keyword tokens finding := by
  cases finds with
  | missing => exact .missing
  | unknown mem => exact .unknown (suffix.mem mem)
  | unstarted => exact .unstarted
  | tile target n => exact .tile target n
  | range ranged first last => exact .range ranged first last

/-- Reading an argument finds no marks, and no problem with the tile space. -/
theorem exists_problem_of_mem_readArgument
    (mem : finding ∈ (readArgument context keyword tokens).findings) :
    ∃ diagnostic, finding = .problem diagnostic ∧ diagnostic.kind ≠ .tileOutOfRange := by
  cases tokens with
  | nil => exact ⟨_, List.mem_singleton.mp mem, by rintro ⟨⟩⟩
  | cons token rest =>
    simp only [readArgument] at mem
    split at mem
    next =>
      split at mem
      next => exact absurd mem List.not_mem_nil
      next => exact ⟨_, List.mem_singleton.mp mem, by rintro ⟨⟩⟩
    next => exact ⟨_, List.mem_singleton.mp mem, by rintro ⟨⟩⟩

theorem finds_of_mem_readArgument
    (mem : finding ∈ (readArgument context keyword tokens).findings) :
    Finds context keyword tokens finding := by
  cases tokens with
  | nil =>
    obtain rfl := List.mem_singleton.mp mem
    exact .missing
  | cons token rest =>
    simp only [readArgument] at mem
    split at mem
    next =>
      split at mem
      next => exact absurd mem List.not_mem_nil
      next =>
        obtain rfl := List.mem_singleton.mp mem
        exact .unknown List.mem_cons_self
    next =>
      obtain rfl := List.mem_singleton.mp mem
      exact .missing

theorem finds_of_mem_step {state : State}
    (mem : finding ∈ (step context state keyword tokens).findings) :
    Finds context keyword tokens finding := by
  have ofArgument : finding ∈ (readArgument context keyword tokens).findings →
      Finds context keyword tokens finding := finds_of_mem_readArgument
  unfold step at mem
  cases known : state.keyword? keyword.word with
  | none =>
    rw [known] at mem
    exact absurd mem List.not_mem_nil
  | some word =>
    rw [known] at mem
    cases word with
    | openBlock => exact absurd mem List.not_mem_nil
    | closeBlock => exact absurd mem List.not_mem_nil
    | voxel => exact absurd mem List.not_mem_nil
    | tileFromTexture =>
      rcases List.mem_append.mp mem with mem | mem
      · exact ofArgument mem
      · obtain ⟨n, -, rfl⟩ := List.mem_map.mp mem
        exact .tile .nonempty n
    | animTileRange =>
      rcases List.mem_append.mp mem with mem | mem
      · rcases List.mem_append.mp mem with mem | mem
        · exact ofArgument mem
        · exact (finds_of_mem_readArgument mem).of_suffix (readArgument_rest_suffix ..)
      · split at mem
        next first last _ _ =>
          obtain rfl := List.mem_singleton.mp mem
          exact .range (by decide) first last
        next => exact absurd mem List.not_mem_nil
    | tile =>
      rcases List.mem_append.mp mem with mem | mem
      · exact ofArgument mem
      · obtain ⟨n, -, rfl⟩ := List.mem_map.mp mem
        exact .tile .voxel n
    | tile0 => exact ofArgument mem
    | tile1 =>
      rcases List.mem_append.mp mem with mem | mem
      · exact ofArgument mem
      · split at mem
        next first last _ _ =>
          obtain rfl := List.mem_singleton.mp mem
          exact .range (by decide) first last
        next =>
          obtain rfl := List.mem_singleton.mp mem
          exact .unstarted
        next => exact absurd mem List.not_mem_nil

end Steps

/-! ## Scans -/

section Scans

variable {context : Context}

theorem scanFrom_eq_append (context : Context) (found : List (Finding Target)) (state : State)
    (tokens : List Token) :
    scanFrom context found state tokens = found.reverse ++ scanFrom context [] state tokens := by
  match tokens with
  | [] => simp [scanFrom]
  | token :: tokens =>
    rw [scanFrom, scanFrom, scanFrom_eq_append, scanFrom_eq_append _ (_ ++ [])]
    simp
termination_by tokens.length
decreasing_by all_goals exact Nat.lt_succ_of_le (step_rest_length ..)

theorem scanFrom_cons (context : Context) (state : State) (token : Token) (tokens : List Token) :
    scanFrom context [] state (token :: tokens) =
      (step context state token tokens).findings ++
        scanFrom context [] (step context state token tokens).state
          (step context state token tokens).rest := by
  rw [scanFrom, scanFrom_eq_append]
  simp

theorem exists_finds_of_mem_scanFrom {finding : Finding Target} (state : State)
    (tokens : List Token) (mem : finding ∈ scanFrom context [] state tokens) :
    ∃ keyword rest, keyword :: rest <:+ tokens ∧ Finds context keyword rest finding := by
  match tokens with
  | [] => simp [scanFrom] at mem
  | token :: tokens =>
    rw [scanFrom_cons] at mem
    rcases List.mem_append.mp mem with mem | mem
    · exact ⟨token, tokens, List.suffix_rfl, finds_of_mem_step mem⟩
    · obtain ⟨keyword, rest, suffix, finds⟩ := exists_finds_of_mem_scanFrom _ _ mem
      refine ⟨keyword, rest, ?_, finds⟩
      exact suffix.trans ((step_rest_suffix ..).trans (List.suffix_cons token tokens))
termination_by tokens.length
decreasing_by exact Nat.lt_succ_of_le (step_rest_length ..)

/-- All that is found in a file is found at some keyword of it. -/
theorem exists_finds_of_mem_sourceFindings {maxTiles : Nat} {constants : Constants}
    {source : Source} {finding : Finding Target}
    (mem : finding ∈ sourceFindings maxTiles constants source) :
    ∃ keyword rest, keyword :: rest <:+ tokens source.text ∧
      Finds ⟨source.path, maxTiles, constants⟩ keyword rest finding :=
  exists_finds_of_mem_scanFrom _ _ mem

/-- Steps of two scans on the same tokens: they take the same of them, stay alike, and find what
compares. -/
structure StepsCompare (Alike : State → State → Prop)
    (Compares : List (Finding Target) → List (Finding Target) → Prop) (first second : Step) :
    Prop where
  rest : first.rest = second.rest
  alike : Alike first.state second.state
  findings : Compares first.findings second.findings

/-- Scans that compare step by step find what compares. -/
theorem compares_scanFrom {other : Context} (Alike : State → State → Prop)
    (Compares : List (Finding Target) → List (Finding Target) → Prop) (nothing : Compares [] [])
    (append : ∀ {a b c d}, Compares a b → Compares c d → Compares (a ++ c) (b ++ d))
    (steps : ∀ {state state'} token tokens, Alike state state' →
      StepsCompare Alike Compares (step context state token tokens)
        (step other state' token tokens))
    {state state' : State} (alike : Alike state state') (tokens : List Token) :
    Compares (scanFrom context [] state tokens) (scanFrom other [] state' tokens) := by
  match tokens with
  | [] =>
    simp only [scanFrom, List.reverse_nil]
    exact nothing
  | token :: tokens =>
    have compare := steps token tokens alike
    rw [scanFrom_cons, scanFrom_cons, ← compare.rest]
    exact append compare.findings
      (compares_scanFrom Alike Compares nothing append steps compare.alike _)
termination_by tokens.length
decreasing_by exact Nat.lt_succ_of_le (step_rest_length ..)

end Scans

end TileCensus.Definition
