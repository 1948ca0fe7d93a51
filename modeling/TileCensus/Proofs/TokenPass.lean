import Mathlib
import TileCensus.Script.Reading

/-!
# The rounds of the token pass

The token pass over a file goes in rounds: with some scopes open it takes a keyword, and with it
the names and arguments it wants from the tokens after it. `rounds` lists the rounds that are
reached, up to and with the one that breaks the nesting of scopes. Every round makes at most one
clause, and the clauses of a file are those of its rounds in order (`clauses_readClauses`). So what
a file says is what its header lines and its rounds say (`facts_ofSource`).
-/

namespace TileCensus.Script

/-! ## Rounds -/

/-- A state of the token pass in which it takes a keyword. -/
structure Round where
  scopes : Scopes
  keyword : Token
  rest : List Token
deriving DecidableEq, Repr

namespace Round

/-- What the keyword does to the open scopes. -/
def step (round : Round) : Step := round.scopes.step round.keyword round.rest

/-- The clause that a round makes. -/
def clause? (round : Round) : Option Clause :=
  match round.step.outcome with
  | .error _ => none
  | .ok (.opened scope) => some (.opened scope)
  | .ok (.closed scope) => some (.closed scope)
  | .ok (.called caller state) => some (.called caller state)
  | .ok .unchanged => (readDirective round.step.scopes round.keyword round.step.rest).1

/-- What a round says of a file at a path. -/
def facts (path : String) (round : Round) : List Fact :=
  (round.clause?.map (Clause.facts ⟨path, round.keyword.line⟩)).getD []

end Round

/-- The rounds of the token pass from some open scopes on. -/
def rounds (scopes : Scopes) (tokens : List Token) : List Round :=
  match tokens with
  | [] => []
  | token :: tokens =>
    let step := scopes.step token tokens
    ⟨scopes, token, tokens⟩ ::
      match step.outcome with
      | .error _ => []
      | .ok .unchanged => rounds step.scopes (readDirective step.scopes token step.rest).2
      | .ok _ => rounds step.scopes step.rest
termination_by tokens.length
decreasing_by
  · exact Nat.lt_succ_of_le (Nat.le_trans (readDirective_length ..) (Scopes.step_rest_length ..))
  · exact Nat.lt_succ_of_le (Scopes.step_rest_length ..)

/-- The rounds of the token pass over a file. -/
def roundsOf (source : Source) : List Round := rounds Scopes.empty (bodyTokens source.text)

variable {scopes : Scopes} {token : Token} {tokens : List Token}

theorem rounds_of_error {violation : ScopeError}
    (outcome : (scopes.step token tokens).outcome = .error violation) :
    rounds scopes (token :: tokens) = [⟨scopes, token, tokens⟩] := by
  simp [rounds, outcome]

theorem rounds_of_changed {transition : Transition}
    (outcome : (scopes.step token tokens).outcome = .ok transition)
    (changed : transition ≠ .unchanged) :
    rounds scopes (token :: tokens) =
      ⟨scopes, token, tokens⟩ ::
        rounds (scopes.step token tokens).scopes (scopes.step token tokens).rest := by
  cases transition with
  | unchanged => exact absurd rfl changed
  | _ => simp [rounds, outcome]

theorem rounds_of_unchanged (outcome : (scopes.step token tokens).outcome = .ok .unchanged) :
    rounds scopes (token :: tokens) =
      ⟨scopes, token, tokens⟩ ::
        rounds (scopes.step token tokens).scopes
          (readDirective (scopes.step token tokens).scopes token
            (scopes.step token tokens).rest).2 := by
  simp [rounds, outcome]

/-! ## Keywords of rounds -/

theorem Scopes.step_rest_suffix (scopes : Scopes) (token : Token) (tokens : List Token) :
    (scopes.step token tokens).rest <:+ tokens := by
  have opened (kind : ScopeKind) (skipped : Nat) :
      (scopes.openScope kind skipped token tokens).rest <:+ tokens := by
    unfold openScope
    split
    next => exact List.nil_suffix
    next name rest found =>
      have suffix : rest <:+ tokens :=
        (List.suffix_cons name rest).trans (found ▸ List.drop_suffix skipped tokens)
      split
      · exact suffix
      · exact suffix
  unfold step
  split
  next => exact opened _ _
  next =>
    unfold closeScope
    split
    · exact List.suffix_rfl
    · exact List.suffix_rfl
  next =>
    split
    next =>
      unfold callState
      split
      next => exact List.suffix_rfl
      next name rest => exact List.suffix_cons name rest
    next => exact opened _ _
  next => exact List.suffix_rfl

theorem readDirective_suffix (scopes : Scopes) (keyword : Token) (tokens : List Token) :
    (readDirective scopes keyword tokens).2 <:+ tokens := by
  unfold readDirective
  split
  · split
    · exact List.suffix_rfl
    · exact (List.drop_suffix ..).trans (List.suffix_cons ..)
  · exact List.suffix_rfl

/-- After its first round a token pass goes on from the scopes that this one has left, on some of
the tokens. -/
theorem exists_rounds_cons (scopes : Scopes) (token : Token) (tokens : List Token) :
    ∃ rest, rest <:+ tokens ∧ rounds scopes (token :: tokens) =
      ⟨scopes, token, tokens⟩ :: rounds (scopes.step token tokens).scopes rest := by
  have suffix := scopes.step_rest_suffix token tokens
  cases outcome : (scopes.step token tokens).outcome with
  | error violation =>
    refine ⟨[], List.nil_suffix, ?_⟩
    rw [rounds_of_error outcome, rounds]
  | ok transition =>
    by_cases changed : transition = .unchanged
    · subst changed
      exact ⟨_, (readDirective_suffix ..).trans suffix, rounds_of_unchanged outcome⟩
    · exact ⟨_, suffix, rounds_of_changed outcome changed⟩

/-- The rounds of a token pass take their keywords from its tokens. -/
theorem keyword_mem_of_mem_rounds {scopes : Scopes} {tokens : List Token} {round : Round}
    (mem : round ∈ rounds scopes tokens) : round.keyword ∈ tokens := by
  match tokens with
  | [] => simp [rounds] at mem
  | token :: tokens =>
    obtain ⟨rest, suffix, later⟩ := exists_rounds_cons scopes token tokens
    rw [later] at mem
    rcases List.mem_cons.mp mem with rfl | mem
    · exact List.mem_cons_self
    · exact List.mem_cons_of_mem _ (suffix.mem (keyword_mem_of_mem_rounds mem))
termination_by tokens.length
decreasing_by exact Nat.lt_succ_of_le suffix.length_le

/-! ## Clauses of rounds -/

theorem clauses_readClausesFrom (done : List (Nat × Clause)) (scopes : Scopes)
    (tokens : List Token) :
    (readClausesFrom done scopes tokens).clauses =
      done.reverse ++ (rounds scopes tokens).filterMap fun round =>
        round.clause?.map fun clause => (round.keyword.line, clause) := by
  fun_induction readClausesFrom done scopes tokens with
  | case1 => simp [rounds]
  | case2 done scopes token tokens step violation outcome =>
    unfold step at outcome
    rw [rounds_of_error outcome]
    simp [Round.clause?, Round.step, outcome]
  | case3 done scopes token tokens step scope outcome ih =>
    unfold step at outcome ih
    rw [ih, rounds_of_changed outcome (by simp)]
    simp [Round.clause?, Round.step, outcome]
  | case4 done scopes token tokens step scope outcome ih =>
    unfold step at outcome ih
    rw [ih, rounds_of_changed outcome (by simp)]
    simp [Round.clause?, Round.step, outcome]
  | case5 done scopes token tokens step caller state outcome ih =>
    unfold step at outcome ih
    rw [ih, rounds_of_changed outcome (by simp)]
    simp [Round.clause?, Round.step, outcome]
  | case6 done scopes token tokens step outcome directive clauses ih =>
    have made : (Round.mk scopes token tokens).clause? = directive.1 := by
      unfold Round.clause? Round.step
      rw [outcome]
    rw [ih, rounds_of_unchanged outcome, List.filterMap_cons, made]
    unfold clauses
    cases directive.1 with
    | none => rfl
    | some clause => simp [directive, step]

theorem clauses_readClauses (tokens : List Token) :
    (readClauses tokens).clauses =
      (rounds Scopes.empty tokens).filterMap fun round =>
        round.clause?.map fun clause => (round.keyword.line, clause) :=
  clauses_readClausesFrom [] Scopes.empty tokens

/-! ## Directives -/

/-- The keyword of a clause that is a directive. -/
def Clause.directive? : Clause → Option String
  | action .. => some "action"
  | ai .. => some "ai"
  | _ => none

theorem readDirective_directive? {scopes : Scopes} {token : Token} {tokens : List Token}
    {clause : Clause} (made : (readDirective scopes token tokens).1 = some clause) :
    clause.directive? = some token.word := by
  unfold readDirective at made
  split at made
  next =>
    split at made
    · cases made
    · unfold Clause.ofDirective? at made
      split at made
      next word =>
        cases made
        rw [word]
        rfl
      next word =>
        cases made
        rw [word]
        rfl
      next => cases made
  next => cases made

namespace Round

variable {round : Round}

theorem step_of_directive (directive : round.keyword.word = "action" ∨ round.keyword.word = "ai") :
    round.step = ⟨.ok .unchanged, round.scopes, round.rest⟩ := by
  unfold step Scopes.step
  rcases directive with word | word <;> rw [word] <;> rfl

/-- A directive makes a clause of the next token and of the arguments on its line. -/
theorem clause?_of_directive
    (directive : round.keyword.word = "action" ∨ round.keyword.word = "ai") :
    round.clause? =
      match round.rest with
      | [] => none
      | name :: rest =>
        let owner := round.scopes.current?
        let limit := if owner.isNone then argumentLimit round.keyword.word name.word else 0
        Clause.ofDirective? round.keyword.word owner name.word
          (sameLineWords round.keyword.line limit rest) := by
  unfold clause?
  rw [step_of_directive directive]
  dsimp only
  rw [readDirective.eq_def, if_pos directive]
  cases round.rest <;> rfl

theorem word_of_clause? {clause : Clause} {word : String} (made : round.clause? = some clause)
    (directive : clause.directive? = some word) : round.keyword.word = word := by
  unfold clause? at made
  split at made
  · cases made
  · cases made
    cases directive
  · cases made
    cases directive
  · cases made
    cases directive
  · exact Option.some_inj.mp ((readDirective_directive? made).symm.trans directive)

end Round

theorem Scopes.current?_eq_none_iff {scopes : Scopes} :
    scopes.current? = none ↔ scopes = Scopes.empty := by
  obtain ⟨actor, state, event⟩ := scopes
  simp [current?, empty, and_assoc]

/-! ## Facts of a file -/

/-- What the token pass over tokens says of a file at a path. -/
def bodyFacts (path : String) (tokens : List Token) : List Fact :=
  (readClauses tokens).clauses.flatMap fun (line, clause) => clause.facts ⟨path, line⟩

theorem bodyFacts_eq (path : String) (tokens : List Token) :
    bodyFacts path tokens = (rounds Scopes.empty tokens).flatMap (Round.facts path) := by
  unfold bodyFacts
  rw [clauses_readClauses, List.filterMap_eq_flatMap_toList, List.flatMap_assoc]
  refine List.flatMap_congr fun round _ => ?_
  unfold Round.facts
  cases round.clause? with
  | none => rfl
  | some clause => simp

theorem facts_ofSource (source : Source) :
    (Reading.ofSource source).facts =
      headerFacts source ++ (roundsOf source).flatMap (Round.facts source.path) :=
  congrArg (headerFacts source ++ ·) (bodyFacts_eq source.path (bodyTokens source.text))

end TileCensus.Script
