import TileCensus.Script.Word

/-!
# Scopes

Actors, states and events are opened and closed by keywords. At most one scope of each kind is
open at a time; scopes of different kinds may overlap in any way. What stands inside several
belongs to the actor if one is open, else to the state, else to the event.

`Scopes.step` applies one keyword and takes the names it binds from the tokens that follow; it
never gives back more tokens than it was given (`step_rest_length`). A step that fails leaves the
open scopes as they are, but the name it has read is gone.
-/

namespace TileCensus.Script

/-! ## Scopes -/

/-- The kinds of scope. -/
inductive ScopeKind where
  | actor
  | state
  | event
deriving DecidableEq, Repr

/-- The word for a kind. -/
def ScopeKind.label : ScopeKind → String
  | actor => "actor"
  | state => "state"
  | event => "event"

/-- A named scope. -/
structure Scope where
  kind : ScopeKind
  name : String
deriving DecidableEq, Repr

/-- The scopes that are open, at most one of each kind. -/
structure Scopes where
  actor : Option String
  state : Option String
  event : Option String
deriving DecidableEq, Repr

namespace Scopes

/-- No scope is open. -/
def empty : Scopes := ⟨none, none, none⟩

/-- The open scope of a kind. -/
def nameOf (scopes : Scopes) : ScopeKind → Option String
  | .actor => scopes.actor
  | .state => scopes.state
  | .event => scopes.event

/-- Opens or closes a kind, whatever was open. -/
def set (scopes : Scopes) (kind : ScopeKind) (name : Option String) : Scopes :=
  match kind with
  | .actor => { scopes with actor := name }
  | .state => { scopes with state := name }
  | .event => { scopes with event := name }

/-- The scope that what follows belongs to: the actor before the state before the event. -/
def current? (scopes : Scopes) : Option Scope :=
  ((scopes.actor.map (Scope.mk .actor)).or (scopes.state.map (Scope.mk .state))).or
    (scopes.event.map (Scope.mk .event))

theorem nameOf_set (scopes : Scopes) (kind other : ScopeKind) (name : Option String) :
    (scopes.set kind name).nameOf other = if kind = other then name else scopes.nameOf other := by
  cases kind <;> cases other <;> rfl

end Scopes

/-! ## Keywords -/

/-- What a scope keyword does. -/
inductive ScopeKeyword where
  /-- Opens a scope named by the word after `skipped` others. -/
  | opens (kind : ScopeKind) (skipped : Nat)
  /-- Closes the open scope of a kind. -/
  | closes (kind : ScopeKind)
  /-- Calls a state from inside a scope and opens one outside all. -/
  | callsOrOpens
deriving DecidableEq, Repr

/-- The keyword a word is. -/
def ScopeKeyword.ofWord? (word : String) : Option ScopeKeyword :=
  match word with
  | "defstate" => some (opens .state 0)
  | "state" => some callsOrOpens
  | "ends" => some (closes .state)
  | "actor" | "eventloadactor" => some (opens .actor 0)
  | "useractor" => some (opens .actor 1)
  | "enda" => some (closes .actor)
  | "onevent" | "appendevent" => some (opens .event 0)
  | "endevent" => some (closes .event)
  | _ => none

/-! ## Violations -/

/-- The ways to break the nesting of scopes. -/
inductive ScopeError where
  | alreadyOpen (line : Nat) (kind : ScopeKind) (opened name : String)
  | notOpen (line : Nat) (kind : ScopeKind) (keyword : String)
  | missingName (line : Nat) (keyword : String)
  | unclosed (scope : Scope)
deriving DecidableEq, Repr

namespace ScopeError

/-- A violation in words. -/
def message : ScopeError → String
  | alreadyOpen _ kind opened name =>
    let kind := kind.label
    s!"cannot open {kind} `{name}` while {kind} `{opened}` is still open"
  | notOpen _ kind keyword =>
    let kind := kind.label
    s!"`{keyword}` without an open {kind}"
  | missingName _ keyword => s!"`{keyword}` is missing its name"
  | unclosed ⟨kind, name⟩ =>
    let kind := kind.label
    s!"{kind} `{name}` is never closed"

/-- The line of the keyword that broke the nesting; none at the end of a file. -/
def line? : ScopeError → Option Nat
  | alreadyOpen line .. | notOpen line .. | missingName line _ => some line
  | unclosed _ => none

end ScopeError

/-! ## Steps -/

/-- What a token did to the open scopes. -/
inductive Transition where
  | opened (scope : Scope)
  | closed (scope : Scope)
  | called (caller : Scope) (state : String)
  /-- The token is no scope keyword, and nothing after it was read. -/
  | unchanged
deriving DecidableEq, Repr

/-- The outcome of one step, the scopes open after it and the tokens it left. -/
structure Step where
  outcome : Except ScopeError Transition
  scopes : Scopes
  rest : List Token

namespace Scopes

/-- The scope that a file leaves open, as a violation. -/
def finish (scopes : Scopes) : Except ScopeError Unit :=
  match scopes.current? with
  | some scope => .error (.unclosed scope)
  | none => .ok ()

/-- Opens a scope whose name is the token after `skipped` others. -/
def openScope (scopes : Scopes) (kind : ScopeKind) (skipped : Nat) (keyword : Token)
    (tokens : List Token) : Step :=
  match tokens.drop skipped with
  | [] => ⟨.error (.missingName keyword.line keyword.word), scopes, []⟩
  | name :: rest =>
    match scopes.nameOf kind with
    | some opened => ⟨.error (.alreadyOpen keyword.line kind opened name.word), scopes, rest⟩
    | none => ⟨.ok (.opened ⟨kind, name.word⟩), scopes.set kind (some name.word), rest⟩

/-- Closes the open scope of a kind. -/
def closeScope (scopes : Scopes) (kind : ScopeKind) (keyword : Token) (tokens : List Token) :
    Step :=
  match scopes.nameOf kind with
  | some name => ⟨.ok (.closed ⟨kind, name⟩), scopes.set kind none, tokens⟩
  | none => ⟨.error (.notOpen keyword.line kind keyword.word), scopes, tokens⟩

/-- Calls the state named by the next token. -/
def callState (scopes : Scopes) (caller : Scope) (keyword : Token) (tokens : List Token) : Step :=
  match tokens with
  | [] => ⟨.error (.missingName keyword.line keyword.word), scopes, []⟩
  | name :: rest => ⟨.ok (.called caller name.word), scopes, rest⟩

/-- Applies a token, taking the names it binds from the tokens after it. -/
def step (scopes : Scopes) (token : Token) (tokens : List Token) : Step :=
  match ScopeKeyword.ofWord? token.word with
  | some (.opens kind skipped) => scopes.openScope kind skipped token tokens
  | some (.closes kind) => scopes.closeScope kind token tokens
  | some .callsOrOpens =>
    match scopes.current? with
    | some caller => scopes.callState caller token tokens
    | none => scopes.openScope .state 0 token tokens
  | none => ⟨.ok .unchanged, scopes, tokens⟩

theorem openScope_rest_length (scopes : Scopes) (kind : ScopeKind) (skipped : Nat)
    (keyword : Token) (tokens : List Token) :
    (scopes.openScope kind skipped keyword tokens).rest.length ≤ tokens.length := by
  have shorter : (tokens.drop skipped).length ≤ tokens.length := by
    rw [List.length_drop]
    omega
  simp only [openScope]
  split
  next => exact Nat.zero_le _
  next name rest h =>
    rw [h, List.length_cons] at shorter
    split <;> exact Nat.le_of_succ_le shorter

/-- A step takes tokens and gives none back. -/
theorem step_rest_length (scopes : Scopes) (token : Token) (tokens : List Token) :
    (scopes.step token tokens).rest.length ≤ tokens.length := by
  simp only [step]
  split
  next => exact openScope_rest_length ..
  next =>
    simp only [closeScope]
    split <;> exact Nat.le_refl _
  next =>
    split
    next =>
      simp only [callState]
      split
      next => exact Nat.le_refl _
      next => exact Nat.le_succ _
    next => exact openScope_rest_length ..
  next => exact Nat.le_refl _

/-! ## Runs -/

/-- Applies every token that no earlier step has taken. A run goes on after a violation only if
`keepGoing` says so. Each step is listed with the token it applied. -/
def run (keepGoing : Bool) (scopes : Scopes) : List Token → List (Token × Step)
  | [] => []
  | token :: tokens =>
    let step := scopes.step token tokens
    match step.outcome with
    | .ok _ => (token, step) :: run keepGoing step.scopes step.rest
    | .error _ =>
      (token, step) :: if keepGoing then run keepGoing step.scopes step.rest else []
termination_by tokens => tokens.length
decreasing_by all_goals exact Nat.lt_succ_of_le (step_rest_length ..)

/-- The scopes open after a run. -/
def after (scopes : Scopes) (steps : List (Token × Step)) : Scopes :=
  (steps.getLast?.map fun (_, step) => step.scopes).getD scopes

end Scopes
end TileCensus.Script
