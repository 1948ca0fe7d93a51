import TileCensus.Script.Header
import TileCensus.Script.Scope

/-!
# Clauses

The tokens of a file are read as clauses: scopes that open and close, calls of states, and the
directives `action` and `ai`. A clause records the scope it belongs to, so what it says can be
told from the clause alone. Reading stops at the first violation of the nesting of scopes.
-/

namespace TileCensus.Script

/-! ## Clauses -/

/-- A clause. A directive outside all scopes has no owner. -/
inductive Clause where
  | opened (scope : Scope)
  | closed (scope : Scope)
  | called (caller : Scope) (state : String)
  | action (owner : Option Scope) (name : String) (arguments : List String)
  | ai (owner : Option Scope) (name : String) (arguments : List String)
deriving DecidableEq, Repr

namespace Clause

/-- What a clause says whose keyword stands at a place. Nothing is attributed to events, and a
literal in action position names no action. -/
def facts (origin : Location) : Clause → List Fact
  | opened ⟨.actor, name⟩ => [.heads name origin]
  | opened _ => []
  | closed _ => []
  | called ⟨.actor, actor⟩ state => [.uses .actorState actor state]
  | called ⟨.state, owner⟩ state => [.uses .stateState owner state]
  | called ⟨.event, _⟩ _ => []
  | action owner name arguments =>
    match owner, actionName? name with
    | _, none => []
    | some ⟨.actor, actor⟩, some named => [.uses .actorAction actor named]
    | some ⟨.state, state⟩, some named => [.uses .stateAction state named]
    | some ⟨.event, _⟩, some _ => []
    | none, some named => [.mentions (ActionDef.ofArguments named arguments origin)]
  | ai (some ⟨.actor, actor⟩) name _ => [.uses .actorAi actor name]
  | ai (some ⟨.state, state⟩) name _ => [.uses .stateAi state name]
  | ai (some ⟨.event, _⟩) _ _ => []
  | ai none name arguments => [.declares name (arguments.head?.bind actionName?)]

end Clause

/-! ## Directives -/

/-- The words of at most `limit` tokens that directly follow on a line. -/
def sameLineWords (line limit : Nat) (tokens : List Token) : List String :=
  ((tokens.take limit).takeWhile (·.line = line)).map (·.word)

/-- How many further words a directive outside all scopes takes. -/
def argumentLimit (keyword name : String) : Nat :=
  match keyword with
  | "action" => if Literal.isLiteral name then 0 else 3
  | _ => 1

/-- A directive's name and arguments as a clause. -/
def Clause.ofDirective? (keyword : String) (owner : Option Scope) (name : String)
    (arguments : List String) : Option Clause :=
  match keyword with
  | "action" => some (.action owner name arguments)
  | "ai" => some (.ai owner name arguments)
  | _ => none

/-- The clause that a token with the tokens after it makes when it is a directive, and the tokens
left. The name is the next token, wherever it stands; arguments stand on the keyword's line, and
only a directive outside all scopes takes them. -/
def readDirective (scopes : Scopes) (keyword : Token) (tokens : List Token) :
    Option Clause × List Token :=
  if keyword.word = "action" ∨ keyword.word = "ai" then
    match tokens with
    | [] => (none, [])
    | name :: rest =>
      let owner := scopes.current?
      let limit := if owner.isNone then argumentLimit keyword.word name.word else 0
      let arguments := sameLineWords keyword.line limit rest
      (Clause.ofDirective? keyword.word owner name.word arguments, rest.drop arguments.length)
  else (none, tokens)

theorem readDirective_length (scopes : Scopes) (keyword : Token) (tokens : List Token) :
    (readDirective scopes keyword tokens).2.length ≤ tokens.length := by
  simp only [readDirective]
  split
  · split
    · exact Nat.le_refl _
    · simp only [List.length_drop, List.length_cons]
      omega
  · exact Nat.le_refl _

/-! ## The clauses of a file -/

/-- The clauses of a file with the lines of their keywords, and how reading them ended. -/
structure ClauseList where
  clauses : List (Nat × Clause)
  ending : Except ScopeError Unit

/-- Reads clauses. `done` holds those read so far, backwards. -/
def readClausesFrom (done : List (Nat × Clause)) (scopes : Scopes) (tokens : List Token) :
    ClauseList :=
  match tokens with
  | [] => ⟨done.reverse, scopes.finish⟩
  | token :: tokens =>
    let step := scopes.step token tokens
    match step.outcome with
    | .error violation => ⟨done.reverse, .error violation⟩
    | .ok (.opened scope) =>
      readClausesFrom ((token.line, .opened scope) :: done) step.scopes step.rest
    | .ok (.closed scope) =>
      readClausesFrom ((token.line, .closed scope) :: done) step.scopes step.rest
    | .ok (.called caller state) =>
      readClausesFrom ((token.line, .called caller state) :: done) step.scopes step.rest
    | .ok .unchanged =>
      let directive := readDirective step.scopes token step.rest
      let clauses := directive.1.toList.map fun clause => (token.line, clause)
      readClausesFrom (clauses ++ done) step.scopes directive.2
termination_by tokens.length
decreasing_by
  · exact Nat.lt_succ_of_le (Scopes.step_rest_length ..)
  · exact Nat.lt_succ_of_le (Scopes.step_rest_length ..)
  · exact Nat.lt_succ_of_le (Scopes.step_rest_length ..)
  · exact Nat.lt_succ_of_le (Nat.le_trans (readDirective_length ..) (Scopes.step_rest_length ..))

/-- The clauses of the tokens of a file. -/
def readClauses (tokens : List Token) : ClauseList := readClausesFrom [] Scopes.empty tokens

end TileCensus.Script
