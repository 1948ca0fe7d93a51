import Mathlib
import TileCensus.Script.Scope

/-!
# Runs of scopes are well bracketed

A run of steps opens and closes scopes of three kinds. For each kind by itself its openings and
closings are brackets: `unmatched` matches them with a stack and knows nothing of the open scopes,
and `Alternates` says that no two openings and no two closings follow one another. The law at the
end says that the scopes a run shows open are the unmatched ones after every step, also where the
run goes on after a violation.

All that a single step can do is in `Effect`; a step that neither opens nor closes leaves the
scopes alone. `Follows` says this of each step of a run, and the law is an induction on it.
-/

namespace TileCensus.Script

/-! ## Brackets -/

/-- An opening or a closing of a scope, with the name of the scope. -/
inductive Bracket where
  | opening (name : String)
  | closing (name : String)
deriving DecidableEq, Repr

/-- The bracket of a kind that the outcome of a step is. -/
def bracket? (kind : ScopeKind) : Except ScopeError Transition → Option Bracket
  | .ok (.opened scope) => if scope.kind = kind then some (.opening scope.name) else none
  | .ok (.closed scope) => if scope.kind = kind then some (.closing scope.name) else none
  | _ => none

/-- The brackets of a kind in a run, in order. -/
def brackets (kind : ScopeKind) (steps : List (Token × Step)) : List Bracket :=
  steps.filterMap fun (_, step) => bracket? kind step.outcome

theorem brackets_cons (kind : ScopeKind) (token : Token) (step : Step)
    (steps : List (Token × Step)) :
    brackets kind ((token, step) :: steps) =
      (bracket? kind step.outcome).toList ++ brackets kind steps := by
  unfold brackets
  rw [List.filterMap_eq_flatMap_toList, List.filterMap_eq_flatMap_toList, List.flatMap_cons]

/-- Openings and closings take turns, and a closing has the name of the opening before it.
`opened?` is the name of an opening that comes before all of them. -/
def Alternates (opened? : Option String) : List Bracket → Prop
  | [] => True
  | .opening name :: rest => opened? = none ∧ Alternates (some name) rest
  | .closing name :: rest => opened? = some name ∧ Alternates none rest

/-- The stack of unmatched openings after a bracket. -/
def Bracket.push (names : List String) : Bracket → List String
  | .opening name => name :: names
  | .closing _ => names.tail

/-- The names of the openings that no closing matches, the last one first. -/
def unmatched (brackets : List Bracket) : List String := brackets.foldl Bracket.push []

/-! ## Steps -/

/-- What a step can come to: it opens a kind that is not open, it closes one that is, or it leaves
the scopes as they are. -/
inductive Effect (scopes : Scopes) : Except ScopeError Transition → Scopes → Prop where
  | opened {kind : ScopeKind} (name : String) (closed : scopes.nameOf kind = none) :
      Effect scopes (.ok (.opened ⟨kind, name⟩)) (scopes.set kind (some name))
  | closed {kind : ScopeKind} {name : String} (opened : scopes.nameOf kind = some name) :
      Effect scopes (.ok (.closed ⟨kind, name⟩)) (scopes.set kind none)
  | called (caller : Scope) (state : String) : Effect scopes (.ok (.called caller state)) scopes
  | unchanged : Effect scopes (.ok .unchanged) scopes
  | failed (violation : ScopeError) : Effect scopes (.error violation) scopes

/-- An outcome that opens and closes nothing. -/
def IsQuiet (outcome : Except ScopeError Transition) : Prop :=
  ∀ scope, outcome ≠ .ok (.opened scope) ∧ outcome ≠ .ok (.closed scope)

theorem isQuiet_error (violation : ScopeError) : IsQuiet (.error violation) :=
  fun _ => ⟨nofun, nofun⟩

namespace Scopes

variable (scopes : Scopes)

theorem effect_openScope (kind : ScopeKind) (skipped : Nat) (keyword : Token)
    (tokens : List Token) :
    Effect scopes (scopes.openScope kind skipped keyword tokens).outcome
      (scopes.openScope kind skipped keyword tokens).scopes := by
  unfold openScope
  cases tokens.drop skipped with
  | nil => exact .failed _
  | cons name rest =>
    cases closed : scopes.nameOf kind with
    | none => exact .opened name.word closed
    | some opened => exact .failed _

theorem effect_closeScope (kind : ScopeKind) (keyword : Token) (tokens : List Token) :
    Effect scopes (scopes.closeScope kind keyword tokens).outcome
      (scopes.closeScope kind keyword tokens).scopes := by
  unfold closeScope
  cases opened : scopes.nameOf kind with
  | none => exact .failed _
  | some name => exact .closed opened

theorem effect_callState (caller : Scope) (keyword : Token) (tokens : List Token) :
    Effect scopes (scopes.callState caller keyword tokens).outcome
      (scopes.callState caller keyword tokens).scopes := by
  cases tokens with
  | nil => exact .failed _
  | cons name rest => exact .called caller name.word

theorem effect_step (token : Token) (tokens : List Token) :
    Effect scopes (scopes.step token tokens).outcome (scopes.step token tokens).scopes := by
  unfold step
  cases ScopeKeyword.ofWord? token.word with
  | none => exact .unchanged
  | some keyword =>
    cases keyword with
    | opens kind skipped => exact scopes.effect_openScope kind skipped token tokens
    | closes kind => exact scopes.effect_closeScope kind token tokens
    | callsOrOpens =>
      cases scopes.current? with
      | none => exact scopes.effect_openScope .state 0 token tokens
      | some caller => exact scopes.effect_callState caller token tokens

end Scopes

/-- A call is made by the scope that what follows belongs to, and a violation is that of the
keyword. -/
inductive Attributed (scopes : Scopes) (keyword : Token) : Except ScopeError Transition → Prop where
  | opened (scope : Scope) : Attributed scopes keyword (.ok (.opened scope))
  | closed (scope : Scope) : Attributed scopes keyword (.ok (.closed scope))
  | called {caller : Scope} (current : scopes.current? = some caller) (state : String) :
      Attributed scopes keyword (.ok (.called caller state))
  | unchanged : Attributed scopes keyword (.ok .unchanged)
  | failed {violation : ScopeError} (line : violation.line? = some keyword.line) :
      Attributed scopes keyword (.error violation)

namespace Scopes

variable (scopes : Scopes)

theorem attributed_openScope (kind : ScopeKind) (skipped : Nat) (keyword : Token)
    (tokens : List Token) :
    Attributed scopes keyword (scopes.openScope kind skipped keyword tokens).outcome := by
  unfold openScope
  cases tokens.drop skipped with
  | nil => exact .failed rfl
  | cons name rest =>
    cases scopes.nameOf kind with
    | none => exact .opened _
    | some opened => exact .failed rfl

theorem attributed_closeScope (kind : ScopeKind) (keyword : Token) (tokens : List Token) :
    Attributed scopes keyword (scopes.closeScope kind keyword tokens).outcome := by
  unfold closeScope
  cases scopes.nameOf kind with
  | none => exact .failed rfl
  | some name => exact .closed _

theorem attributed_step (token : Token) (tokens : List Token) :
    Attributed scopes token (scopes.step token tokens).outcome := by
  unfold step
  cases ScopeKeyword.ofWord? token.word with
  | none => exact .unchanged
  | some keyword =>
    cases keyword with
    | opens kind skipped => exact scopes.attributed_openScope kind skipped token tokens
    | closes kind => exact scopes.attributed_closeScope kind token tokens
    | callsOrOpens =>
      cases current : scopes.current? with
      | none => exact scopes.attributed_openScope .state 0 token tokens
      | some caller =>
        cases tokens with
        | nil => exact .failed rfl
        | cons name rest => exact .called current name.word

end Scopes

variable {scopes after : Scopes} {outcome : Except ScopeError Transition}

theorem Effect.eq_of_isQuiet (effect : Effect scopes outcome after) (quiet : IsQuiet outcome) :
    after = scopes := by
  cases effect with
  | opened name closed => exact absurd rfl (quiet _).1
  | closed opened => exact absurd rfl (quiet _).2
  | called => rfl
  | unchanged => rfl
  | failed => rfl

/-- A step takes the open name of a kind along with the stack of unmatched openings. -/
theorem Effect.toList_nameOf (effect : Effect scopes outcome after) (kind : ScopeKind) :
    (after.nameOf kind).toList =
      (bracket? kind outcome).toList.foldl Bracket.push (scopes.nameOf kind).toList := by
  cases effect with
  | @opened other name closed =>
    rw [Scopes.nameOf_set, bracket?]
    by_cases same : other = kind
    · subst same
      simp [closed, Bracket.push]
    · simp [same]
  | @closed other name opened =>
    rw [Scopes.nameOf_set, bracket?]
    by_cases same : other = kind
    · subst same
      simp [opened, Bracket.push]
    · simp [same]
  | called => rfl
  | unchanged => rfl
  | failed => rfl

theorem Effect.alternates_cons (effect : Effect scopes outcome after) {kind : ScopeKind}
    {rest : List Bracket} (alternates : Alternates (after.nameOf kind) rest) :
    Alternates (scopes.nameOf kind) ((bracket? kind outcome).toList ++ rest) := by
  cases effect with
  | @opened other name closed =>
    rw [Scopes.nameOf_set] at alternates
    rw [bracket?]
    by_cases same : other = kind
    · subst same
      rw [if_pos rfl] at alternates ⊢
      exact ⟨closed, alternates⟩
    · rw [if_neg same] at alternates ⊢
      exact alternates
  | @closed other name opened =>
    rw [Scopes.nameOf_set] at alternates
    rw [bracket?]
    by_cases same : other = kind
    · subst same
      rw [if_pos rfl] at alternates ⊢
      exact ⟨opened, alternates⟩
    · rw [if_neg same] at alternates ⊢
      exact alternates
  | called => exact alternates
  | unchanged => exact alternates
  | failed => exact alternates

/-! ## Runs -/

/-- Each step of a run does what a step can do to the scopes before it. -/
inductive Follows : Scopes → List (Token × Step) → Prop where
  | nil (scopes : Scopes) : Follows scopes []
  | cons {scopes : Scopes} {token : Token} {step : Step} {steps : List (Token × Step)}
      (effect : Effect scopes step.outcome step.scopes) (follows : Follows step.scopes steps) :
      Follows scopes ((token, step) :: steps)

theorem Scopes.follows_run (keepGoing : Bool) (scopes : Scopes) (tokens : List Token) :
    Follows scopes (scopes.run keepGoing tokens) := by
  fun_induction Scopes.run keepGoing scopes tokens with
  | case1 scopes => exact .nil scopes
  | case2 scopes token tokens step transition outcome ih =>
    exact .cons (scopes.effect_step token tokens) ih
  | case3 scopes token tokens step violation outcome ih =>
    refine .cons (scopes.effect_step token tokens) ?_
    cases keepGoing with
    | true => exact ih
    | false => exact .nil _

theorem Scopes.after_cons (scopes : Scopes) (token : Token) (step : Step)
    (steps : List (Token × Step)) :
    scopes.after ((token, step) :: steps) = step.scopes.after steps := by
  unfold Scopes.after
  rw [List.getLast?_cons]
  cases steps.getLast? <;> rfl

namespace Follows

variable {steps rest : List (Token × Step)}

theorem of_append (follows : Follows scopes (steps ++ rest)) :
    Follows scopes steps ∧ Follows (scopes.after steps) rest := by
  induction steps generalizing scopes with
  | nil => exact ⟨.nil scopes, follows⟩
  | cons entry steps ih =>
    obtain ⟨token, step⟩ := entry
    cases follows with
    | cons effect follows =>
      obtain ⟨first, last⟩ := ih follows
      rw [Scopes.after_cons]
      exact ⟨.cons effect first, last⟩

theorem toList_nameOf_after (follows : Follows scopes steps) (kind : ScopeKind) :
    ((scopes.after steps).nameOf kind).toList =
      (brackets kind steps).foldl Bracket.push (scopes.nameOf kind).toList := by
  induction follows with
  | nil => rfl
  | @cons scopes token step steps effect follows ih =>
    rw [Scopes.after_cons, ih, effect.toList_nameOf, brackets_cons, List.foldl_append]

theorem alternates (follows : Follows scopes steps) (kind : ScopeKind) :
    Alternates (scopes.nameOf kind) (brackets kind steps) := by
  induction follows with
  | nil => trivial
  | @cons scopes token step steps effect follows ih =>
    rw [brackets_cons]
    exact effect.alternates_cons ih

end Follows

/-! ## The end of a run -/

/-- The kinds in the order in which what is left open is looked for. -/
def ScopeKind.all : List ScopeKind := [.actor, .state, .event]

theorem ScopeKind.mem_all (kind : ScopeKind) : kind ∈ all := by cases kind <;> decide

namespace Scopes

variable {scopes : Scopes} {steps done : List (Token × Step)}

theorem current?_eq_findSome? (scopes : Scopes) :
    scopes.current? =
      ScopeKind.all.findSome? fun kind => (scopes.nameOf kind).map (Scope.mk kind) := by
  obtain ⟨actor, state, event⟩ := scopes
  cases actor <;> cases state <;> cases event <;> rfl

theorem finish_eq_ok_iff : scopes.finish = .ok () ↔ ∀ kind, scopes.nameOf kind = none := by
  have closed : scopes.finish = .ok () ↔ scopes.current? = none := by
    unfold finish
    cases scopes.current? <;> simp
  rw [closed, current?_eq_findSome?, List.findSome?_eq_none_iff]
  constructor
  · intro none_open kind
    exact Option.map_eq_none_iff.mp (none_open kind kind.mem_all)
  · intro none_open kind _
    exact Option.map_eq_none_iff.mpr (none_open kind)

/-- What is reported at the end is the first kind that is open. -/
theorem finish_eq_error_iff {violation : ScopeError} :
    scopes.finish = .error violation ↔
      ∃ earlier kind later name, ScopeKind.all = earlier ++ kind :: later ∧
        scopes.nameOf kind = some name ∧ (∀ other ∈ earlier, scopes.nameOf other = none) ∧
        violation = .unclosed ⟨kind, name⟩ := by
  have opened : scopes.finish = .error violation ↔
      ∃ scope, scopes.current? = some scope ∧ violation = .unclosed scope := by
    unfold finish
    cases scopes.current? <;> simp [eq_comm]
  rw [opened, current?_eq_findSome?]
  simp only [List.findSome?_eq_some_iff, Option.map_eq_some_iff, Option.map_eq_none_iff]
  constructor
  · rintro ⟨_, ⟨earlier, kind, later, split, ⟨name, shown, rfl⟩, hidden⟩, rfl⟩
    exact ⟨earlier, kind, later, name, split, shown, hidden, rfl⟩
  · rintro ⟨earlier, kind, later, name, split, shown, hidden, rfl⟩
    exact ⟨⟨kind, name⟩, ⟨earlier, kind, later, split, ⟨name, shown, rfl⟩, hidden⟩, rfl⟩

/-! ## Bracketing -/

/-- The scopes that a run shows open are the unmatched ones. -/
theorem unmatched_brackets (follows : Follows empty steps) (kind : ScopeKind) :
    unmatched (brackets kind steps) = ((empty.after steps).nameOf kind).toList := by
  have closed : (empty.nameOf kind).toList = [] := by cases kind <;> rfl
  rw [follows.toList_nameOf_after, closed]
  rfl

theorem unmatched_eq_nil_iff (follows : Follows empty steps) (kind : ScopeKind) :
    unmatched (brackets kind steps) = [] ↔ (empty.after steps).nameOf kind = none := by
  rw [unmatched_brackets follows, Option.toList_eq_nil_iff]

theorem unmatched_eq_singleton_iff (follows : Follows empty steps) (kind : ScopeKind)
    (name : String) :
    unmatched (brackets kind steps) = [name] ↔ (empty.after steps).nameOf kind = some name := by
  rw [unmatched_brackets follows, Option.toList_eq_singleton_iff]

/-- In a run from the beginning of a file the brackets of every kind alternate, at any time the
open scopes are the unmatched ones, and they decide how the file ends; a step that opens and closes
nothing leaves them as they are. -/
theorem run_bracketed (keepGoing : Bool) (tokens : List Token) :
    let steps := empty.run keepGoing tokens
    (∀ kind, Alternates none (brackets kind steps)) ∧
    (∀ done, done <+: steps →
      (∀ kind, unmatched (brackets kind done) = ((empty.after done).nameOf kind).toList) ∧
      ((empty.after done).finish = .ok () ↔ ∀ kind, unmatched (brackets kind done) = []) ∧
      ∀ violation, (empty.after done).finish = .error violation ↔
        ∃ earlier kind later name, ScopeKind.all = earlier ++ kind :: later ∧
          unmatched (brackets kind done) = [name] ∧
          (∀ other ∈ earlier, unmatched (brackets other done) = []) ∧
          violation = .unclosed ⟨kind, name⟩) ∧
    ∀ done token step rest, steps = done ++ (token, step) :: rest → IsQuiet step.outcome →
      step.scopes = empty.after done := by
  intro steps
  have follows : Follows empty steps := follows_run keepGoing empty tokens
  refine ⟨fun kind => ?_, ?_, ?_⟩
  · have closed : empty.nameOf kind = none := by cases kind <;> rfl
    exact closed ▸ follows.alternates kind
  · -- what has been done at some time is a run of its own
    rintro done ⟨rest, split⟩
    rw [← split] at follows
    obtain ⟨follows, -⟩ := follows.of_append
    refine ⟨unmatched_brackets follows, ?_, fun violation => ?_⟩
    · simp only [unmatched_eq_nil_iff follows]
      exact finish_eq_ok_iff
    · simp only [unmatched_eq_nil_iff follows, unmatched_eq_singleton_iff follows]
      exact finish_eq_error_iff
  · intro done token step rest split quiet
    rw [split] at follows
    obtain ⟨-, follows⟩ := follows.of_append
    cases follows with
    | cons effect _ => exact effect.eq_of_isQuiet quiet

/-- The tokens of a file in which an actor crosses a state, with two violations. -/
def crossing : List Token :=
  [⟨"ends", 1⟩, ⟨"state", 2⟩, ⟨"s", 2⟩, ⟨"actor", 3⟩, ⟨"A", 3⟩, ⟨"actor", 4⟩, ⟨"B", 4⟩, ⟨"enda", 5⟩]

/-- The second actor leaves the first one and the state open, and the state is never closed. -/
theorem run_bracketed_crossing :
    let steps := empty.run true crossing
    let opened : Scopes := ⟨some "A", some "s", none⟩
    let second : Step := ⟨.error (.alreadyOpen 4 .actor "A" "B"), opened, [⟨"enda", 5⟩]⟩
    (steps <+: steps ∧ (empty.after steps).finish = .error (.unclosed ⟨.state, "s"⟩)) ∧
      steps = steps.take 3 ++ (⟨"actor", 4⟩, second) :: steps.drop 4 ∧ IsQuiet second.outcome ∧
      second.scopes = empty.after (steps.take 3) := by
  intro steps opened second
  obtain ⟨-, prefixes, quiets⟩ := run_bracketed true crossing
  have whole : steps <+: steps := List.prefix_refl steps
  have split : empty.run true crossing = (empty.run true crossing).take 3 ++
      (⟨"actor", 4⟩, ⟨.error (.alreadyOpen 4 .actor "A" "B"), ⟨some "A", some "s", none⟩,
        [⟨"enda", 5⟩]⟩) :: (empty.run true crossing).drop 4 := by
    cbv
  have quiet : IsQuiet second.outcome := isQuiet_error _
  have states : unmatched (brackets .state (empty.run true crossing)) = ["s"] := by cbv
  have actors : unmatched (brackets .actor (empty.run true crossing)) = [] := by cbv
  refine ⟨⟨whole, ?_⟩, split, quiet, quiets _ _ _ _ split quiet⟩
  refine ((prefixes steps whole).2.2 _).mpr ⟨[.actor], .state, [.event], "s", rfl, states, ?_, rfl⟩
  intro other mem
  obtain rfl := List.mem_singleton.mp mem
  exact actors

end Scopes
end TileCensus.Script
