import TileCensus.Proofs.FileUnion
import TileCensus.Proofs.Locations
import TileCensus.Proofs.TokenPass

/-!
# A violation cuts the token pass

A round that succeeds looks at nothing but the tokens it takes, and at the one after them only to
see whether its line goes on (`Round.exists_taken`). So the rounds before a keyword are those of
the tokens before that keyword, in all that they do (`rounds_cut`). With it the law at the end says
what a broken nesting costs: the tables have the header lines of the whole file and what the tokens
before the keyword say; and a nesting that is only left open costs nothing
(`reading_cut`).
-/

namespace TileCensus.Script

/-! ## Tokens that a step takes -/

/-- What is read of tokens is made of those it takes alone, and leaves whatever stands after
them. -/
def TakesFront (read : List Token → Step) (tokens : List Token) : Prop :=
  ∃ taken, tokens = taken ++ (read tokens).rest ∧
    ∀ kept, read (taken ++ kept) = { read tokens with rest := kept }

namespace Scopes

variable {scopes : Scopes} {token : Token} {tokens : List Token} {transition : Transition}

theorem takesFront_openScope {kind : ScopeKind} {skipped : Nat}
    (outcome : (scopes.openScope kind skipped token tokens).outcome = .ok transition) :
    TakesFront (scopes.openScope kind skipped token) tokens := by
  cases front : tokens.drop skipped with
  | nil => simp [openScope, front] at outcome
  | cons name rest =>
    cases opened : scopes.nameOf kind with
    | some other => simp [openScope, front, opened] at outcome
    | none =>
      have enough : skipped < tokens.length := by
        have length := congrArg List.length front
        rw [List.length_drop, List.length_cons] at length
        omega
      refine ⟨tokens.take skipped ++ [name], ?_, fun kept => ?_⟩
      · simp only [openScope, front, opened]
        rw [List.append_assoc, List.singleton_append, ← front, List.take_append_drop]
      · have skips : (tokens.take skipped ++ [name] ++ kept).drop skipped = name :: kept := by
          rw [List.append_assoc]
          exact List.drop_left' (List.length_take_of_le enough.le)
        simp only [openScope, front, opened, skips]

/-- A step that succeeds takes a keyword's names and looks at no token after them. -/
theorem takesFront_step (outcome : (scopes.step token tokens).outcome = .ok transition) :
    TakesFront (scopes.step token) tokens := by
  unfold step at outcome ⊢
  split at outcome
  next => exact takesFront_openScope outcome
  next kind _ =>
    refine ⟨[], ?_, fun kept => ?_⟩
    · unfold closeScope
      cases scopes.nameOf kind <;> rfl
    · unfold closeScope
      cases scopes.nameOf kind <;> rfl
  next =>
    split at outcome
    next =>
      cases tokens with
      | nil => cases outcome
      | cons name rest => exact ⟨[name], rfl, fun kept => rfl⟩
    next => exact takesFront_openScope outcome
  next => exact ⟨[], rfl, fun kept => rfl⟩

end Scopes

/-! ## Tokens that a directive takes -/

/-- At most `limit` tokens that directly follow on a line. -/
def sameLine (line limit : Nat) (tokens : List Token) : List Token :=
  (tokens.take limit).takeWhile (·.line = line)

theorem sameLine_append_drop (line limit : Nat) (tokens : List Token) :
    sameLine line limit tokens ++ tokens.drop (sameLine line limit tokens).length = tokens :=
  List.prefix_iff_eq_append.mp ((List.takeWhile_prefix _).trans (List.take_prefix ..))

theorem sameLine_succ_cons (line limit : Nat) (next : Token) (tokens : List Token) :
    sameLine line (limit + 1) (next :: tokens) =
      if next.line = line then next :: sameLine line limit tokens else [] := by
  unfold sameLine
  rw [List.take_succ_cons, List.takeWhile_cons]
  by_cases goesOn : next.line = line <;> simp [goesOn]

/-- Where the tokens of a line end, they also end if what stands after them is cut. -/
theorem sameLine_of_append {line limit : Nat} {taken kept cut : List Token}
    (whole : sameLine line limit (taken ++ (kept ++ cut)) = taken) :
    sameLine line limit (taken ++ kept) = taken := by
  induction taken generalizing limit with
  | nil =>
    cases limit with
    | zero => rfl
    | succ limit =>
      cases kept with
      | nil => rfl
      | cons next kept =>
        rw [List.nil_append, List.cons_append, sameLine_succ_cons] at whole
        rw [List.nil_append, sameLine_succ_cons]
        by_cases goesOn : next.line = line
        · rw [if_pos goesOn] at whole
          cases whole
        · exact if_neg goesOn
  | cons next taken ih =>
    cases limit with
    | zero => cases whole
    | succ limit =>
      rw [List.cons_append, sameLine_succ_cons] at whole ⊢
      by_cases goesOn : next.line = line
      · rw [if_pos goesOn] at whole ⊢
        exact congrArg _ (ih (List.cons.inj whole).2)
      · rw [if_neg goesOn] at whole
        cases whole

theorem exists_readDirective_cons (scopes : Scopes) {keyword : Token} (name : Token)
    (directive : keyword.word = "action" ∨ keyword.word = "ai") :
    ∃ limit, ∀ rest, readDirective scopes keyword (name :: rest) =
      (Clause.ofDirective? keyword.word scopes.current? name.word
          ((sameLine keyword.line limit rest).map (·.word)),
        rest.drop (sameLine keyword.line limit rest).length) := by
  refine ⟨if scopes.current?.isNone then argumentLimit keyword.word name.word else 0, ?_⟩
  intro rest
  simp only [readDirective, if_pos directive, sameLineWords, List.length_map]
  rfl

/-- A directive looks at the token after those it takes only to see whether its line goes on, so
to cut the tokens there or later changes nothing. -/
theorem exists_taken_readDirective (scopes : Scopes) (keyword : Token) (tokens : List Token) :
    ∃ taken, tokens = taken ++ (readDirective scopes keyword tokens).2 ∧
      ∀ kept, kept <+: (readDirective scopes keyword tokens).2 →
        readDirective scopes keyword (taken ++ kept) =
          ((readDirective scopes keyword tokens).1, kept) := by
  by_cases directive : keyword.word = "action" ∨ keyword.word = "ai"
  · cases tokens with
    | nil =>
      refine ⟨[], ?_, fun kept front => ?_⟩
      · simp [readDirective]
      · have nothing : kept = [] := by simpa [readDirective] using front
        simp [nothing, readDirective]
    | cons name rest =>
      obtain ⟨limit, takes⟩ := exists_readDirective_cons scopes name directive
      have split := sameLine_append_drop keyword.line limit rest
      refine ⟨name :: sameLine keyword.line limit rest, ?_, fun kept front => ?_⟩
      · rw [takes, List.cons_append, split]
      · rw [takes] at front ⊢
        obtain ⟨cut, front⟩ := front
        have ends : sameLine keyword.line limit (sameLine keyword.line limit rest ++ kept) =
            sameLine keyword.line limit rest := by
          have whole : sameLine keyword.line limit (sameLine keyword.line limit rest ++
              (kept ++ cut)) = sameLine keyword.line limit rest := by
            rw [front, split]
          exact sameLine_of_append whole
        rw [List.cons_append, takes, ends, List.drop_left]
  · refine ⟨[], ?_, fun kept _ => ?_⟩
    · simp [readDirective, directive]
    · simp [readDirective, directive]

/-! ## Tokens that a round takes -/

namespace Round

/-- What a round comes to, apart from the tokens that it leaves. -/
structure Result where
  keyword : Token
  outcome : Except ScopeError Transition
  scopes : Scopes
  clause? : Option Clause

/-- What a round comes to. -/
def result (round : Round) : Result :=
  ⟨round.keyword, round.step.outcome, round.step.scopes, round.clause?⟩

/-- The keyword of the round keeps the nesting. -/
def Succeeds (round : Round) : Prop := ∃ transition, round.step.outcome = .ok transition

/-- The tokens that a round leaves to those after it. -/
def left (round : Round) : List Token :=
  match round.step.outcome with
  | .ok .unchanged => (readDirective round.step.scopes round.keyword round.step.rest).2
  | _ => round.step.rest

/-- The keyword of a round and the tokens that the round takes with it. -/
def tokens (round : Round) : List Token :=
  round.keyword :: round.rest.take (round.rest.length - round.left.length)

variable {round : Round} {transition : Transition}

theorem not_succeeds_of_error {violation : ScopeError}
    (outcome : round.step.outcome = .error violation) : ¬round.Succeeds := by
  intro succeeds
  obtain ⟨transition, succeeded⟩ := succeeds
  cases outcome.symm.trans succeeded

theorem left_of_unchanged (outcome : round.step.outcome = .ok .unchanged) :
    round.left = (readDirective round.step.scopes round.keyword round.step.rest).2 := by
  unfold left
  rw [outcome]

theorem left_of_changed (outcome : round.step.outcome = .ok transition)
    (changed : transition ≠ .unchanged) : round.left = round.step.rest := by
  unfold left
  rw [outcome]
  cases transition with
  | unchanged => exact absurd rfl changed
  | _ => rfl

/-- A round that succeeds does the same if the tokens it leaves are cut. -/
theorem exists_taken (succeeds : round.Succeeds) :
    ∃ taken, round.rest = taken ++ round.left ∧ ∀ kept, kept <+: round.left →
      Round.left { round with rest := taken ++ kept } = kept ∧
      Round.result { round with rest := taken ++ kept } = round.result := by
  obtain ⟨transition, outcome⟩ := succeeds
  obtain ⟨taken, split, front⟩ := Scopes.takesFront_step outcome
  by_cases changed : transition = .unchanged
  · subst changed
    obtain ⟨more, splitMore, frontMore⟩ :=
      exists_taken_readDirective round.step.scopes round.keyword round.step.rest
    rw [left_of_unchanged outcome]
    refine ⟨taken ++ more, ?_, fun kept cut => ?_⟩
    · rw [List.append_assoc, ← splitMore]
      exact split
    · have stepped : Round.step { round with rest := taken ++ more ++ kept } =
          { round.step with rest := more ++ kept } := by
        rw [List.append_assoc]
        exact front (more ++ kept)
      simp only [left, result, clause?, stepped, outcome, frontMore kept cut, and_self]
  · rw [left_of_changed outcome changed]
    refine ⟨taken, split, fun kept _ => ?_⟩
    have stepped : Round.step { round with rest := taken ++ kept } =
        { round.step with rest := kept } := front kept
    have same : (Round.step { round with rest := taken ++ kept }).outcome = .ok transition := by
      rw [stepped]
      exact outcome
    refine ⟨?_, ?_⟩
    · rw [left_of_changed same changed, stepped]
    · simp only [result, clause?, stepped, outcome]
      cases transition with
      | unchanged => exact absurd rfl changed
      | _ => rfl

theorem tokens_append_left (succeeds : round.Succeeds) :
    round.tokens ++ round.left = round.keyword :: round.rest := by
  obtain ⟨taken, split, -⟩ := exists_taken succeeds
  have front : round.rest.take (round.rest.length - round.left.length) = taken := by
    rw [split, List.length_append, Nat.add_sub_cancel, List.take_left]
  rw [tokens, front, List.cons_append, ← split]

theorem left_length (round : Round) : round.left.length ≤ round.rest.length := by
  have shorter := (round.scopes.step_rest_suffix round.keyword round.rest).length_le
  unfold left
  split
  · exact (readDirective_suffix ..).length_le.trans shorter
  · exact shorter

end Round

/-! ## Rounds up to a keyword -/

theorem rounds_of_succeeds {round : Round} (succeeds : round.Succeeds) :
    rounds round.scopes (round.keyword :: round.rest) =
      round :: rounds round.step.scopes round.left := by
  obtain ⟨transition, outcome⟩ := succeeds
  by_cases changed : transition = .unchanged
  · subst changed
    rw [Round.left_of_unchanged outcome]
    exact rounds_of_unchanged outcome
  · rw [Round.left_of_changed outcome changed]
    exact rounds_of_changed outcome changed

/-- What holds where no tokens are left and at a round that fails, and at one that succeeds if it
holds after it, holds of every token pass. -/
theorem pass_induction {motive : Scopes → List Token → Prop} (nil : ∀ scopes, motive scopes [])
    (failed : ∀ (round : Round) violation, round.step.outcome = .error violation →
      motive round.scopes (round.keyword :: round.rest))
    (succeeded : ∀ round : Round, round.Succeeds → motive round.step.scopes round.left →
      motive round.scopes (round.keyword :: round.rest))
    (scopes : Scopes) (tokens : List Token) : motive scopes tokens := by
  match tokens with
  | [] => exact nil scopes
  | token :: tokens =>
    let round : Round := ⟨scopes, token, tokens⟩
    cases outcome : round.step.outcome with
    | error violation => exact failed round violation outcome
    | ok transition =>
      exact succeeded round ⟨transition, outcome⟩
        (pass_induction nil failed succeeded round.step.scopes round.left)
termination_by tokens.length
decreasing_by exact Nat.lt_succ_of_le round.left_length

/-- The rounds before that of a keyword are those of the tokens before the keyword, in all that
they do. -/
theorem rounds_cut {scopes : Scopes} {tokens : List Token} {round : Round}
    (mem : round ∈ rounds scopes tokens) :
    ∃ before earlier, tokens = before ++ round.keyword :: round.rest ∧
      rounds scopes tokens = earlier ++ rounds round.scopes (round.keyword :: round.rest) ∧
      (rounds scopes before).map Round.result = earlier.map Round.result := by
  induction scopes, tokens using pass_induction with
  | nil scopes => simp [rounds] at mem
  | failed first violation outcome =>
    rw [rounds_of_error outcome] at mem
    obtain rfl := List.mem_singleton.mp mem
    exact ⟨[], [], rfl, rfl, by rw [rounds]⟩
  | succeeded first succeeds ih =>
    rw [rounds_of_succeeds succeeds] at mem ⊢
    rcases List.mem_cons.mp mem with rfl | mem
    · exact ⟨[], [], rfl, (rounds_of_succeeds succeeds).symm, by rw [rounds]⟩
    · obtain ⟨before, earlier, split, later, same⟩ := ih mem
      obtain ⟨taken, takes, front⟩ := first.exists_taken succeeds
      obtain ⟨left, result⟩ := front before ⟨_, split.symm⟩
      refine ⟨first.keyword :: (taken ++ before), first :: earlier, ?_, ?_, ?_⟩
      · rw [takes, split, List.cons_append, List.append_assoc]
      · rw [later, List.cons_append]
      · let cut : Round := { first with rest := taken ++ before }
        have cutSucceeds : cut.Succeeds := by
          obtain ⟨transition, outcome⟩ := succeeds
          exact ⟨transition, (congrArg Round.Result.outcome result).trans outcome⟩
        have cutScopes : cut.step.scopes = first.step.scopes := congrArg Round.Result.scopes result
        have cutRounds := rounds_of_succeeds cutSucceeds
        rw [left, cutScopes] at cutRounds
        rw [cutRounds, List.map_cons, List.map_cons, same, result]

/-- In a pass in which every round succeeds, each token is the keyword of a round or taken by
one. -/
theorem flatMap_tokens_rounds {scopes : Scopes} {tokens : List Token}
    (succeed : ∀ round ∈ rounds scopes tokens, round.Succeeds) :
    (rounds scopes tokens).flatMap Round.tokens = tokens := by
  induction scopes, tokens using pass_induction with
  | nil scopes => rw [rounds, List.flatMap_nil]
  | failed round violation outcome =>
    rw [rounds_of_error outcome] at succeed
    exact absurd (succeed round List.mem_cons_self) (Round.not_succeeds_of_error outcome)
  | succeeded round succeeds ih =>
    rw [rounds_of_succeeds succeeds] at succeed ⊢
    rw [List.flatMap_cons, ih fun later mem => succeed later (List.mem_cons_of_mem _ mem)]
    exact Round.tokens_append_left succeeds

/-! ## The end of a pass -/

/-- The scopes that rounds leave open. -/
def Scopes.openAfter (scopes : Scopes) (rounds : List Round) : Scopes :=
  (rounds.getLast?.map fun round => round.step.scopes).getD scopes

theorem Scopes.openAfter_cons (scopes : Scopes) (round : Round) (rounds : List Round) :
    scopes.openAfter (round :: rounds) = round.step.scopes.openAfter rounds := by
  unfold openAfter
  rw [List.getLast?_cons]
  cases rounds.getLast? <;> rfl

theorem readClausesFrom_of_error (done : List (Nat × Clause)) {round : Round}
    {violation : ScopeError} (outcome : round.step.outcome = .error violation) :
    (readClausesFrom done round.scopes (round.keyword :: round.rest)).ending =
      .error violation := by
  unfold Round.step at outcome
  rw [readClausesFrom]
  simp only [outcome]

theorem exists_readClausesFrom_of_succeeds (done : List (Nat × Clause)) {round : Round}
    (succeeds : round.Succeeds) :
    ∃ more, readClausesFrom done round.scopes (round.keyword :: round.rest) =
      readClausesFrom more round.step.scopes round.left := by
  obtain ⟨transition, outcome⟩ := succeeds
  by_cases changed : transition = .unchanged
  · subst changed
    rw [Round.left_of_unchanged outcome, readClausesFrom]
    unfold Round.step at outcome ⊢
    simp only [outcome]
    exact ⟨_, rfl⟩
  · rw [Round.left_of_changed outcome changed, readClausesFrom]
    unfold Round.step at outcome ⊢
    simp only [outcome]
    cases transition with
    | unchanged => exact absurd rfl changed
    | _ => exact ⟨_, rfl⟩

theorem ending_of_error {done : List (Nat × Clause)} {scopes : Scopes} {tokens : List Token}
    {round : Round} {violation : ScopeError} (mem : round ∈ rounds scopes tokens)
    (outcome : round.step.outcome = .error violation) :
    (readClausesFrom done scopes tokens).ending = .error violation := by
  induction scopes, tokens using pass_induction generalizing done with
  | nil scopes => simp [rounds] at mem
  | failed first other failed =>
    rw [rounds_of_error failed] at mem
    obtain rfl := List.mem_singleton.mp mem
    exact readClausesFrom_of_error done outcome
  | succeeded first succeeds ih =>
    rw [rounds_of_succeeds succeeds] at mem
    rcases List.mem_cons.mp mem with rfl | mem
    · exact absurd succeeds (Round.not_succeeds_of_error outcome)
    · obtain ⟨more, later⟩ := exists_readClausesFrom_of_succeeds done succeeds
      rw [later]
      exact ih mem

theorem ending_of_succeeds {done : List (Nat × Clause)} {scopes : Scopes} {tokens : List Token}
    (succeed : ∀ round ∈ rounds scopes tokens, round.Succeeds) :
    (readClausesFrom done scopes tokens).ending =
      (scopes.openAfter (rounds scopes tokens)).finish := by
  induction scopes, tokens using pass_induction generalizing done with
  | nil scopes =>
    rw [readClausesFrom, rounds]
    rfl
  | failed round violation outcome =>
    rw [rounds_of_error outcome] at succeed
    exact absurd (succeed round List.mem_cons_self) (Round.not_succeeds_of_error outcome)
  | succeeded round succeeds ih =>
    rw [rounds_of_succeeds succeeds] at succeed ⊢
    obtain ⟨more, later⟩ := exists_readClausesFrom_of_succeeds done succeeds
    rw [later, Scopes.openAfter_cons]
    exact ih fun other mem => succeed other (List.mem_cons_of_mem _ mem)

theorem ending_readClauses {source : Source}
    (succeed : ∀ round ∈ roundsOf source, round.Succeeds) :
    (readClauses (bodyTokens source.text)).ending =
      (Scopes.empty.openAfter (roundsOf source)).finish :=
  ending_of_succeeds succeed

/-! ## Violations -/

theorem violationDiagnostic_of_line? {source : Source} {violation : ScopeError} {line : Nat}
    (broken : violation.line? = some line) :
    violationDiagnostic source violation =
      ⟨.scopeViolation, some ⟨source.path, line⟩,
        violation.message ++ "; rest of file skipped"⟩ := by
  cases violation with
  | unclosed => cases broken
  | _ =>
    cases broken
    rfl

theorem violations_of_ending_error {source : Source} {violation : ScopeError}
    (ending : (readClauses (bodyTokens source.text)).ending = .error violation) :
    violations [source] = [violationDiagnostic source violation] := by
  simp [violations, Reading.ofSource, ending]

theorem violations_of_ending_ok {source : Source}
    (ending : (readClauses (bodyTokens source.text)).ending = .ok ()) :
    violations [source] = [] := by
  simp [violations, Reading.ofSource, ending]

theorem Scopes.finish_of_current? {scopes : Scopes} {scope : Scope}
    (opened : scopes.current? = some scope) : scopes.finish = .error (.unclosed scope) := by
  unfold finish
  rw [opened]

section

variable {source : Source}

theorem kind_of_mem_violations {diagnostic : Diagnostic} (mem : diagnostic ∈ violations [source]) :
    diagnostic.kind = .scopeViolation ∧
      ∃ line, diagnostic.location = some ⟨source.path, line⟩ := by
  cases ended : (readClauses (bodyTokens source.text)).ending with
  | error violation =>
    rw [violations_of_ending_error ended] at mem
    obtain rfl := List.mem_singleton.mp mem
    exact ⟨rfl, _, rfl⟩
  | ok =>
    rw [violations_of_ending_ok ended] at mem
    cases mem

theorem violations_of_round_error {round : Round} {violation : ScopeError}
    (mem : round ∈ roundsOf source) (outcome : round.step.outcome = .error violation) :
    violations [source] = [⟨.scopeViolation, some ⟨source.path, round.keyword.line⟩,
      violation.message ++ "; rest of file skipped"⟩] := by
  rw [violations_of_ending_error (ending_of_error mem outcome)]
  rw [violationDiagnostic_of_line? (Scopes.line?_of_step_error outcome)]

theorem violations_of_unclosed {scope : Scope} (succeed : ∀ round ∈ roundsOf source, round.Succeeds)
    (opened : (Scopes.empty.openAfter (roundsOf source)).current? = some scope) :
    violations [source] =
      [⟨.scopeViolation, some ⟨source.path, (Text.lines source.text).length⟩,
        (ScopeError.unclosed scope).message⟩] := by
  have ending := ending_readClauses succeed
  exact violations_of_ending_error (ending.trans (Scopes.finish_of_current? opened))

theorem violations_eq_nil_iff :
    violations [source] = [] ↔
      (∀ round ∈ roundsOf source, round.Succeeds) ∧
        Scopes.empty.openAfter (roundsOf source) = Scopes.empty := by
  constructor
  · intro quiet
    have succeed : ∀ round ∈ roundsOf source, round.Succeeds := by
      intro round mem
      cases outcome : round.step.outcome with
      | error violation => simp [violations_of_round_error mem outcome] at quiet
      | ok transition => exact ⟨transition, outcome⟩
    refine ⟨succeed, Scopes.current?_eq_none_iff.mp ?_⟩
    cases opened : (Scopes.empty.openAfter (roundsOf source)).current? with
    | none => rfl
    | some scope => simp [violations_of_unclosed succeed opened] at quiet
  · intro ⟨succeed, closed⟩
    have ending := ending_readClauses succeed
    rw [closed] at ending
    exact violations_of_ending_ok ending

end

/-! ## What is recorded -/

theorem Round.flatMap_facts_eq (path : String) {first second : List Round}
    (same : first.map result = second.map result) :
    first.flatMap (facts path) = second.flatMap (facts path) := by
  have ofResults (rounds : List Round) : rounds.flatMap (facts path) =
      (rounds.map result).flatMap fun result =>
        (result.clause?.map (Clause.facts ⟨path, result.keyword.line⟩)).getD [] := by
    rw [List.flatMap_map]
    rfl
  rw [ofResults, ofResults, same]

/-- A violation leaves what the tokens before its keyword say. -/
theorem bodyFacts_cut (path : String) {tokens : List Token} {round : Round}
    {violation : ScopeError} (mem : round ∈ rounds Scopes.empty tokens)
    (outcome : round.step.outcome = .error violation) :
    ∃ before, tokens = before ++ round.keyword :: round.rest ∧
      bodyFacts path tokens = bodyFacts path before := by
  obtain ⟨before, earlier, split, later, same⟩ := rounds_cut mem
  refine ⟨before, split, ?_⟩
  have silent : round.facts path = [] := by
    unfold Round.facts Round.clause?
    rw [outcome]
    rfl
  have last : rounds round.scopes (round.keyword :: round.rest) = [round] :=
    rounds_of_error outcome
  rw [bodyFacts_eq, bodyFacts_eq, later, last, List.flatMap_append, List.flatMap_singleton, silent,
    List.append_nil]
  exact (Round.flatMap_facts_eq path same).symm

theorem SymbolTables.recordReadings_singleton (tables : SymbolTables) (source : Source) :
    tables.recordReadings [Reading.ofSource source] =
      (tables.recordAll (headerFacts source)).recordAll
        (bodyFacts source.path (bodyTokens source.text)) := by
  rw [recordReadings, List.flatMap_singleton, ← recordAll_append]
  rfl

/-- A file has at most one violation, and none exactly if every round succeeds and nothing is open
at the end. One of a keyword is reported at the keyword's line, and what the tokens from the
keyword on say is not recorded; one at the end of the file is reported at the last line, and what
all tokens say is recorded. What the header lines say is recorded in any case. -/
theorem reading_cut (tables : SymbolTables) (source : Source) :
    let recorded := tables.recordReadings [Reading.ofSource source]
    let headed := tables.recordAll (headerFacts source)
    let opened := Scopes.empty.openAfter (roundsOf source)
    ((violations [source]).length ≤ 1 ∧
      ∀ diagnostic ∈ violations [source], diagnostic.kind = .scopeViolation ∧
        ∃ line, diagnostic.location = some ⟨source.path, line⟩) ∧
    (violations [source] = [] ↔
      (∀ round ∈ roundsOf source, round.Succeeds) ∧ opened = Scopes.empty) ∧
    (∀ round ∈ roundsOf source, ∀ violation, round.step.outcome = .error violation →
      violations [source] =
        [⟨.scopeViolation, some ⟨source.path, round.keyword.line⟩,
          violation.message ++ "; rest of file skipped"⟩] ∧
      ∃ before, bodyTokens source.text = before ++ round.keyword :: round.rest ∧
        recorded = headed.recordAll (bodyFacts source.path before)) ∧
    ((∀ round ∈ roundsOf source, round.Succeeds) →
      (∀ scope, opened.current? = some scope → violations [source] =
        [⟨.scopeViolation, some ⟨source.path, (Text.lines source.text).length⟩,
          (ScopeError.unclosed scope).message⟩]) ∧
      (roundsOf source).flatMap Round.tokens = bodyTokens source.text ∧
      recorded = headed.recordAll ((roundsOf source).flatMap (Round.facts source.path))) := by
  intro recorded headed opened
  have passes : recorded = headed.recordAll (bodyFacts source.path (bodyTokens source.text)) :=
    tables.recordReadings_singleton source
  refine ⟨⟨List.length_filterMap_le .., fun _ => kind_of_mem_violations⟩,
    violations_eq_nil_iff, ?_, ?_⟩
  · intro round mem violation outcome
    obtain ⟨before, split, same⟩ := bodyFacts_cut source.path mem outcome
    exact ⟨violations_of_round_error mem outcome, before, split, same ▸ passes⟩
  · intro succeed
    have all : bodyFacts source.path (bodyTokens source.text) =
        (roundsOf source).flatMap (Round.facts source.path) :=
      bodyFacts_eq ..
    exact ⟨fun scope => violations_of_unclosed succeed, flatMap_tokens_rounds succeed,
      all ▸ passes⟩

/-- A script in which an actor is begun inside another. -/
def nestedActor : Source := ⟨"a.con", "actor A\naction X\nactor B\naction Y\n"⟩

/-- The round of the inner actor. -/
def nestedRound : Round :=
  ⟨⟨some "A", none, none⟩, ⟨"actor", 3⟩, [⟨"B", 3⟩, ⟨"action", 4⟩, ⟨"Y", 4⟩]⟩

/-- The tokens of the outer actor. -/
def outerTokens : List Token := [⟨"actor", 1⟩, ⟨"A", 1⟩, ⟨"action", 2⟩, ⟨"X", 2⟩]

theorem bodyTokens_nestedActor :
    bodyTokens nestedActor.text = outerTokens ++ nestedRound.keyword :: nestedRound.rest := by
  cbv

/-- The outer actor keeps the action before the inner one, and nothing is known of the inner one.
An actor that is only left open keeps all. -/
theorem reading_cut_nestedActor :
    let violation := ScopeError.alreadyOpen 3 .actor "A" "B"
    let unclosed := SymbolTables.unclosedActor
    (nestedRound ∈ roundsOf nestedActor ∧ nestedRound.step.outcome = .error violation ∧
      violations [nestedActor] = [⟨.scopeViolation, some ⟨"a.con", 3⟩,
        violation.message ++ "; rest of file skipped"⟩] ∧
      SymbolTables.empty.recordReadings [Reading.ofSource nestedActor] =
        SymbolTables.empty.recordAll [.heads "A" ⟨"a.con", 1⟩, .uses .actorAction "A" "X"]) ∧
    (∀ round ∈ roundsOf unclosed, round.Succeeds) ∧
      (Scopes.empty.openAfter (roundsOf unclosed)).current? = some ⟨.actor, "A"⟩ ∧
      violations [unclosed] = [⟨.scopeViolation, some ⟨"b.con", 2⟩,
        (ScopeError.unclosed ⟨.actor, "A"⟩).message⟩] := by
  intro violation unclosed
  have reached : nestedRound ∈ roundsOf nestedActor := by
    unfold roundsOf
    rw [bodyTokens_nestedActor]
    have rounds : rounds Scopes.empty (outerTokens ++ nestedRound.keyword :: nestedRound.rest) =
        [⟨Scopes.empty, ⟨"actor", 1⟩, outerTokens.tail ++ nestedRound.keyword :: nestedRound.rest⟩,
          ⟨⟨some "A", none, none⟩, ⟨"action", 2⟩,
            ⟨"X", 2⟩ :: nestedRound.keyword :: nestedRound.rest⟩, nestedRound] := by
      cbv
    simp [rounds]
  have fails : nestedRound.step.outcome = .error violation := rfl
  have nested := reading_cut SymbolTables.empty nestedActor
  obtain ⟨reported, before, split, recorded⟩ := nested.2.2.1 nestedRound reached violation fails
  obtain rfl := List.append_cancel_right (bodyTokens_nestedActor.symm.trans split)
  have headers : headerFacts nestedActor = [] := by cbv
  have body : bodyFacts "a.con" outerTokens =
      [.heads "A" ⟨"a.con", 1⟩, .uses .actorAction "A" "X"] := by
    cbv
  have rounds : roundsOf unclosed =
      [⟨Scopes.empty, ⟨"actor", 1⟩, [⟨"A", 1⟩, ⟨"action", 2⟩, ⟨"X", 2⟩]⟩,
        ⟨⟨some "A", none, none⟩, ⟨"action", 2⟩, [⟨"X", 2⟩]⟩] := by
    cbv
  have succeed : ∀ round ∈ roundsOf unclosed, round.Succeeds := by
    intro round mem
    rw [rounds] at mem
    rcases List.mem_cons.mp mem with rfl | mem
    · exact ⟨_, rfl⟩
    · obtain rfl := List.mem_singleton.mp mem
      exact ⟨_, rfl⟩
  have opened : (Scopes.empty.openAfter (roundsOf unclosed)).current? = some ⟨.actor, "A"⟩ := by
    rw [rounds]
    rfl
  have lines : (Text.lines unclosed.text).length = 2 := by cbv
  have left := ((reading_cut SymbolTables.empty unclosed).2.2.2 succeed).1 _ opened
  rw [lines] at left
  refine ⟨⟨reached, fails, reported, ?_⟩, succeed, opened, left⟩
  rw [recorded, headers]
  exact congrArg _ body

end TileCensus.Script
