import TileCensus.Frames
import TileCensus.Proofs.FileUnion
import TileCensus.Proofs.OnePass
import TileCensus.Proofs.Reachability
import TileCensus.Proofs.TokenPass

/-!
# Names in symbol tables

Every name in the tables of a corpus is a word of some script: a run of letters, digits and
underscores, or a number with a minus sign before it (`IsWord`). A name that stands for an action
which is used, started with or bound is never a literal, and no owner is kept without a name that
it refers to. All of this is in `SymbolTables.WellFormed`.

Names reach the tables in three steps, and each keeps them words. What scopes, clauses and
violations are named by is taken from the tokens (`Scopes.names_step`, `names_readClausesFrom`);
what a header line or a clause says has its names (`Header.wellFormed_of_mem_facts`,
`Clause.wellFormed_of_mem_facts`); and recording a fact adds its names and no others
(`SymbolTables.WellFormed.record`).
-/

namespace TileCensus.Script

open Text

/-! ## Words -/

/-- A word: letters, digits and underscores, which a minus sign may precede if a digit is the first
of them. -/
def IsWord (word : String) : Prop :=
  (word.toList ≠ [] ∧ ∀ c ∈ word.toList, isWordChar c = true) ∨
    ∃ digit rest, word.toList = '-' :: digit :: rest ∧ digit.isDigit = true ∧
      ∀ c ∈ rest, isWordChar c = true

/-- A run that no word character follows is a word, or there is none. -/
theorem Pending.isWord_of_mem_finishWord {minus run rest : List Char} {word : String}
    (pending : Pending minus run rest) (ended : ∀ c ∈ rest.head?, ¬isWordChar c = true)
    (mem : word ∈ finishWord (run ++ minus)) : IsWord word := by
  have letters : ∀ c ∈ run.reverse, isWordChar c = true := by simpa using pending.letters
  obtain ⟨nonblank, rfl⟩ := mem_finishWord_iff.mp mem
  rw [IsWord, String.toList_ofList, List.reverse_append]
  rcases pending.sign with rfl | ⟨rfl, starts⟩
  · exact .inl ⟨by simpa using nonblank, letters⟩
  · cases read : run.reverse with
    | nil =>
      -- the digit after the sign would be the character that follows the run
      rw [read, List.nil_append] at starts
      cases rest with
      | nil => simp [startsNumber] at starts
      | cons c rest =>
        have digit : c.isDigit = true := by simpa [startsNumber] using starts
        exact absurd (isWordChar_of_isDigit digit) (ended c rfl)
    | cons digit rest' =>
      rw [read] at starts letters
      refine .inr ⟨digit, rest', rfl, by simpa [startsNumber] using starts, ?_⟩
      exact (List.forall_mem_cons.mp letters).2

theorem Pending.isWord_of_mem_wordsFrom {minus run rest : List Char} {word : String}
    (pending : Pending minus run rest) (mem : word ∈ wordsFrom (run ++ minus) rest) :
    IsWord word := by
  induction rest generalizing minus run with
  | nil => exact pending.isWord_of_mem_finishWord (by simp) mem
  | cons c rest ih =>
    rw [wordsFrom] at mem
    split at mem
    next letter => exact ih (pending.cons letter) mem
    next other =>
      rcases List.mem_append.mp mem with mem | mem
      · exact pending.isWord_of_mem_finishWord (by simpa using other) mem
      · exact ih (Pending.ofMinus c rest) mem

/-- The words of a line are words. -/
theorem isWord_of_mem_words {line : List Char} {word : String} (mem : word ∈ words line) :
    IsWord word :=
  (Pending.none line).isWord_of_mem_wordsFrom mem

theorem isWord_of_mem_bodyTokens {text : String} {token : Token} (mem : token ∈ bodyTokens text) :
    IsWord token.word := by
  obtain ⟨⟨line, number⟩, -, mem⟩ := List.mem_flatMap.mp mem
  dsimp only at mem
  split at mem
  next => cases mem
  next =>
    obtain ⟨word, listed, rfl⟩ := List.mem_map.mp mem
    exact isWord_of_mem_words listed

/-! ## Names of scopes and clauses -/

/-- The names of the open scopes. -/
def Scopes.names (scopes : Scopes) : List String :=
  scopes.actor.toList ++ scopes.state.toList ++ scopes.event.toList

/-- The words that a violation is told with. -/
def ScopeError.names : ScopeError → List String
  | alreadyOpen _ _ opened name => [opened, name]
  | notOpen _ _ keyword | missingName _ keyword => [keyword]
  | unclosed scope => [scope.name]

/-- The names in what a token does to the open scopes. -/
def Transition.names : Transition → List String
  | opened scope | closed scope => [scope.name]
  | called caller state => [caller.name, state]
  | unchanged => []

/-- The names in the outcome of a step. -/
def Step.names (step : Step) : List String :=
  match step.outcome with
  | .ok transition => transition.names
  | .error violation => violation.names

/-- The names in a clause, with its arguments. -/
def Clause.names : Clause → List String
  | opened scope | closed scope => [scope.name]
  | called caller state => [caller.name, state]
  | action owner name arguments | ai owner name arguments =>
    (owner.map Scope.name).toList ++ name :: arguments

namespace Scopes

variable {scopes : Scopes} {P : String → Prop}

theorem mem_names_iff {name : String} :
    name ∈ scopes.names ↔ ∃ kind, scopes.nameOf kind = some name := by
  simp only [names, List.mem_append, Option.mem_toList]
  constructor
  · rintro ((actor | state) | event)
    · exact ⟨.actor, actor⟩
    · exact ⟨.state, state⟩
    · exact ⟨.event, event⟩
  · rintro ⟨kind, opened⟩
    cases kind with
    | actor => exact .inl (.inl opened)
    | state => exact .inl (.inr opened)
    | event => exact .inr opened

theorem name_mem_names_of_current? {scope : Scope} (current : scopes.current? = some scope) :
    scope.name ∈ scopes.names := by
  obtain ⟨actor, state, event⟩ := scopes
  cases actor <;> cases state <;> cases event <;> simp_all [current?, names] <;> simp [← current]

/-- What opening a scope comes to is named by the scopes, its keyword and the tokens after it. -/
theorem names_openScope (opened : ∀ name ∈ scopes.names, P name) {keyword : Token}
    {tokens : List Token} (word : P keyword.word) (words : ∀ token ∈ tokens, P token.word)
    (kind : ScopeKind) (skipped : Nat) :
    let step := scopes.openScope kind skipped keyword tokens
    (∀ name ∈ step.names, P name) ∧ ∀ name ∈ step.scopes.names, P name := by
  unfold openScope
  split
  next => exact ⟨by simpa [Step.names, ScopeError.names] using word, opened⟩
  next name rest found =>
    have named : P name.word :=
      words name (List.mem_of_mem_drop (found ▸ List.mem_cons_self))
    split
    next other known =>
      have open_name : P other := opened other (mem_names_iff.mpr ⟨kind, known⟩)
      exact ⟨by simp [Step.names, ScopeError.names, open_name, named], opened⟩
    next =>
      refine ⟨by simpa [Step.names, Transition.names] using named, fun other mem => ?_⟩
      obtain ⟨kind', known⟩ := mem_names_iff.mp mem
      rw [nameOf_set] at known
      split at known
      next =>
        obtain rfl := Option.some_inj.mp known
        exact named
      next => exact opened other (mem_names_iff.mpr ⟨kind', known⟩)

theorem names_closeScope (opened : ∀ name ∈ scopes.names, P name) {keyword : Token}
    (tokens : List Token) (word : P keyword.word) (kind : ScopeKind) :
    let step := scopes.closeScope kind keyword tokens
    (∀ name ∈ step.names, P name) ∧ ∀ name ∈ step.scopes.names, P name := by
  unfold closeScope
  split
  next name known =>
    have named : P name := opened name (mem_names_iff.mpr ⟨kind, known⟩)
    refine ⟨by simpa [Step.names, Transition.names] using named, fun other mem => ?_⟩
    obtain ⟨kind', known⟩ := mem_names_iff.mp mem
    rw [nameOf_set] at known
    split at known
    next => cases known
    next => exact opened other (mem_names_iff.mpr ⟨kind', known⟩)
  next => exact ⟨by simpa [Step.names, ScopeError.names] using word, opened⟩

/-- What a step comes to is named by the scopes before it, its token and the tokens after it. -/
theorem names_step (opened : ∀ name ∈ scopes.names, P name) {token : Token}
    {tokens : List Token} (words : ∀ other ∈ token :: tokens, P other.word) :
    let step := scopes.step token tokens
    (∀ name ∈ step.names, P name) ∧ ∀ name ∈ step.scopes.names, P name := by
  obtain ⟨word, words⟩ := List.forall_mem_cons.mp words
  unfold step
  split
  next kind skipped _ => exact names_openScope opened word words kind skipped
  next kind _ => exact names_closeScope opened tokens word kind
  next =>
    split
    next caller current =>
      have called : P caller.name := opened _ (name_mem_names_of_current? current)
      unfold callState
      cases tokens with
      | nil => exact ⟨by simpa [Step.names, ScopeError.names] using word, opened⟩
      | cons name rest =>
        have named : P name.word := words name List.mem_cons_self
        exact ⟨by simp [Step.names, Transition.names, called, named], opened⟩
    next => exact names_openScope opened word words .state 0
  next => exact ⟨by simp [Step.names, Transition.names], opened⟩

/-- After a step that is no violation everything is still named as before. -/
theorem names_step_ok (opened : ∀ name ∈ scopes.names, P name) {token : Token}
    {tokens : List Token} (words : ∀ other ∈ token :: tokens, P other.word)
    {transition : Transition} (outcome : (scopes.step token tokens).outcome = .ok transition) :
    (∀ name ∈ transition.names, P name) ∧
      (∀ name ∈ (scopes.step token tokens).scopes.names, P name) ∧
      ∀ other ∈ (scopes.step token tokens).rest, P other.word := by
  obtain ⟨named, opened⟩ := names_step opened words
  rw [Step.names, outcome] at named
  refine ⟨named, opened, fun other mem => ?_⟩
  exact words other (List.mem_cons_of_mem _ ((scopes.step_rest_suffix token tokens).mem mem))

theorem names_finish (opened : ∀ name ∈ scopes.names, P name) {violation : ScopeError}
    (ended : scopes.finish = .error violation) : ∀ name ∈ violation.names, P name := by
  unfold finish at ended
  split at ended
  next scope current =>
    cases ended
    simpa [ScopeError.names] using opened _ (name_mem_names_of_current? current)
  next => cases ended

end Scopes

section Clauses

variable {scopes : Scopes} {P : String → Prop}

/-- A directive is named by the open scopes and the tokens after it. -/
theorem names_readDirective (opened : ∀ name ∈ scopes.names, P name) {keyword : Token}
    {tokens : List Token} (words : ∀ token ∈ tokens, P token.word) {clause : Clause}
    (made : (readDirective scopes keyword tokens).1 = some clause) :
    ∀ name ∈ clause.names, P name := by
  have owned : ∀ name ∈ (scopes.current?.map Scope.name).toList, P name := by
    intro name mem
    obtain ⟨scope, current, rfl⟩ := Option.map_eq_some_iff.mp (Option.mem_toList.mp mem)
    exact opened _ (Scopes.name_mem_names_of_current? current)
  have argued {line limit : Nat} {tokens : List Token} (words : ∀ token ∈ tokens, P token.word) :
      ∀ name ∈ sameLineWords line limit tokens, P name := by
    intro name mem
    obtain ⟨token, listed, rfl⟩ := List.mem_map.mp mem
    exact words token (List.mem_of_mem_take ((List.takeWhile_prefix _).subset listed))
  unfold readDirective at made
  split at made
  next =>
    split at made
    next => cases made
    next name rest =>
      obtain ⟨named, words⟩ := List.forall_mem_cons.mp words
      have all (line limit : Nat) : ∀ other ∈ (scopes.current?.map Scope.name).toList ++
          name.word :: sameLineWords line limit rest, P other := by
        intro other mem
        rcases List.mem_append.mp mem with mem | mem
        · exact owned other mem
        · rcases List.mem_cons.mp mem with rfl | mem
          · exact named
          · exact argued words other mem
      unfold Clause.ofDirective? at made
      split at made
      next =>
        cases made
        exact all _ _
      next =>
        cases made
        exact all _ _
      next => cases made
  next => cases made

/-- Clauses, and what ends them, are named by the open scopes and the tokens. -/
theorem names_readClausesFrom {done : List (Nat × Clause)} {tokens : List Token}
    (read : ∀ entry ∈ done, ∀ name ∈ entry.2.names, P name)
    (opened : ∀ name ∈ scopes.names, P name) (words : ∀ token ∈ tokens, P token.word) :
    let list := readClausesFrom done scopes tokens
    (∀ entry ∈ list.clauses, ∀ name ∈ entry.2.names, P name) ∧
      ∀ violation, list.ending = .error violation → ∀ name ∈ violation.names, P name := by
  fun_induction readClausesFrom done scopes tokens with
  | case1 done scopes =>
    exact ⟨by simpa using read, fun violation ended => Scopes.names_finish opened ended⟩
  | case2 done scopes token tokens step violation outcome =>
    have named : ∀ name ∈ step.names, P name := (Scopes.names_step opened words).1
    rw [Step.names, outcome] at named
    refine ⟨by simpa using read, fun other ended => ?_⟩
    cases ended
    exact named
  | case3 done scopes token tokens step scope outcome ih =>
    obtain ⟨named, opened, words⟩ := Scopes.names_step_ok opened words outcome
    exact ih (List.forall_mem_cons.mpr ⟨named, read⟩) opened words
  | case4 done scopes token tokens step scope outcome ih =>
    obtain ⟨named, opened, words⟩ := Scopes.names_step_ok opened words outcome
    exact ih (List.forall_mem_cons.mpr ⟨named, read⟩) opened words
  | case5 done scopes token tokens step caller state outcome ih =>
    obtain ⟨named, opened, words⟩ := Scopes.names_step_ok opened words outcome
    exact ih (List.forall_mem_cons.mpr ⟨named, read⟩) opened words
  | case6 done scopes token tokens step outcome directive clauses ih =>
    obtain ⟨-, opened, words⟩ := Scopes.names_step_ok opened words outcome
    refine ih (fun entry mem => ?_) opened fun other mem => ?_
    · rcases List.mem_append.mp mem with mem | mem
      · obtain ⟨clause, made, rfl⟩ := List.mem_map.mp mem
        exact names_readDirective opened words (Option.mem_toList.mp made)
      · exact read entry mem
    · exact words other ((readDirective_suffix ..).mem mem)

/-- The clauses of a text, and what ends them, are named by words. -/
theorem isWord_readClauses (text : String) :
    let list := readClauses (bodyTokens text)
    (∀ entry ∈ list.clauses, ∀ name ∈ entry.2.names, IsWord name) ∧
      ∀ violation, list.ending = .error violation → ∀ name ∈ violation.names, IsWord name := by
  refine names_readClausesFrom ?_ ?_ fun token mem => isWord_of_mem_bodyTokens mem
  · intro entry mem
    cases mem
  · intro name mem
    cases mem

end Clauses

/-! ## Names in facts -/

/-- The name of an action that is used, started with or bound. -/
structure IsActionName (name : String) : Prop where
  word : IsWord name
  named : Literal.isLiteral name = false

/-- What a link may refer to. -/
def Link.Admits : Link → String → Prop
  | .actorAction, name | .stateAction, name => IsActionName name
  | .actorAi, name | .stateAi, name | .actorState, name | .stateState, name => IsWord name

end Script

open Script in
/-- The names in the definition of an action are words. -/
structure ActionDef.IsWorded (action : ActionDef) : Prop where
  name : IsWord action.name
  operands : ∀ symbol, .symbol symbol ∈ action.operands → IsWord symbol

namespace Script

/-- The names in a fact are words, and what stands for an action in it names one. -/
def Fact.WellFormed : Fact → Prop
  | defines action | mentions action => action.IsWorded
  | binds ai bound | declares ai bound =>
    IsWord ai ∧ ∀ action, bound = some action → IsActionName action
  | starts actor action => IsWord actor ∧ IsActionName action
  | heads actor _ => IsWord actor
  | uses link owner name => IsWord owner ∧ link.Admits name

theorem Link.Admits.isWord {link : Link} {name : String} (admits : link.Admits name) :
    IsWord name := by
  cases link with
  | actorAction | stateAction => exact IsActionName.word admits
  | actorAi | stateAi | actorState | stateState => exact admits

theorem actionName?_eq_some {word name : String} (isWord : IsWord word)
    (found : actionName? word = some name) : IsActionName name := by
  unfold actionName? at found
  split at found
  next => cases found
  next named =>
    cases found
    exact ⟨isWord, by simpa using named⟩

theorem isWorded_ofArguments {name : String} {arguments : List String} (isWord : IsWord name)
    (words : ∀ word ∈ arguments, IsWord word) (origin : Location) :
    (ActionDef.ofArguments name arguments origin).IsWorded := by
  refine ⟨isWord, fun symbol mem => ?_⟩
  have given {index : Nat} {default : Int64}
      (operand : .symbol symbol = (arguments[index]?.map Operand.ofWord).getD (.literal default)) :
      IsWord symbol := by
    cases found : arguments[index]? with
    | none => simp [found] at operand
    | some word =>
      rw [found, Option.map_some, Option.getD_some] at operand
      rw [← (Operand.ofWord_eq_symbol_iff.mp operand.symm).2]
      exact words word (List.mem_of_getElem? found)
  simp only [ActionDef.operands, ActionDef.ofArguments, List.mem_cons, List.not_mem_nil,
    or_false] at mem
  rcases mem with operand | operand | operand
  · exact given operand
  · exact given operand
  · exact given operand

/-- What a header line says is well formed. -/
theorem Header.wellFormed_of_mem_facts {words : List String} (all : ∀ word ∈ words, IsWord word)
    {header : Header} (found : Header.ofWords? words = some header) {origin : Location}
    {fact : Fact} (mem : fact ∈ header.facts origin) : fact.WellFormed := by
  -- The two headers of actors differ in where the name and the initial action stand.
  have ofActor {name initial : String} (named : IsWord name) (isWord : IsWord initial)
      (mem : fact ∈ (actor name (actionName? initial)).facts origin) : fact.WellFormed := by
    rcases List.mem_append.mp mem with mem | mem
    · obtain ⟨action, starts, rfl⟩ := List.mem_map.mp (Option.toList_map .. ▸ mem)
      exact ⟨named, actionName?_eq_some isWord (Option.mem_toList.mp starts)⟩
    · obtain rfl := List.mem_singleton.mp mem
      exact named
  unfold ofWords? at found
  split at found
  next name start rest =>
    split at found
    next =>
      cases found
      obtain rfl := List.mem_singleton.mp mem
      exact isWorded_ofArguments (all name (by simp)) (fun word mem => all word (by simp_all)) _
    next => cases found
  next name bound _ =>
    split at found
    next =>
      cases found
      obtain rfl := List.mem_singleton.mp mem
      exact ⟨all name (by simp), fun _ => actionName?_eq_some (all bound (by simp))⟩
    next => cases found
  next name strength initial _ =>
    split at found
    next =>
      cases found
      exact ofActor (all name (by simp)) (all initial (by simp)) mem
    next => cases found
  next type name strength initial _ =>
    split at found
    next =>
      cases found
      exact ofActor (all name (by simp)) (all initial (by simp)) mem
    next => cases found
  next => cases found

/-- What a clause says is well formed if its names are words. -/
theorem Clause.wellFormed_of_mem_facts {clause : Clause} (all : ∀ name ∈ clause.names, IsWord name)
    (origin : Location) : ∀ fact ∈ clause.facts origin, fact.WellFormed := by
  cases clause with
  | opened scope =>
    obtain ⟨kind, name⟩ := scope
    cases kind with
    | actor => simpa [facts, names, Fact.WellFormed] using all
    | state => exact nofun
    | event => exact nofun
  | closed scope => exact nofun
  | called caller state =>
    obtain ⟨kind, owner⟩ := caller
    cases kind with
    | actor => simpa [facts, names, Fact.WellFormed, Link.Admits] using all
    | state => simpa [facts, names, Fact.WellFormed, Link.Admits] using all
    | event => exact nofun
  | action owner name arguments =>
    cases found : actionName? name with
    | none => simp [facts, found]
    | some action =>
      have named : IsActionName action := actionName?_eq_some (all name (by simp [names])) found
      cases owner with
      | none =>
        have words : ∀ word ∈ arguments, IsWord word := by
          intro word mem
          exact all word (by simp [names, mem])
        simpa [facts, found, Fact.WellFormed] using isWorded_ofArguments named.word words origin
      | some scope =>
        obtain ⟨kind, owner⟩ := scope
        have owned : IsWord owner := all owner (by simp [names])
        cases kind with
        | actor => simp [facts, found, Fact.WellFormed, Link.Admits, owned, named]
        | state => simp [facts, found, Fact.WellFormed, Link.Admits, owned, named]
        | event => simp [facts, found]
  | ai owner name arguments =>
    have named : IsWord name := all name (by simp [names])
    cases owner with
    | none =>
      intro fact mem
      obtain rfl := List.mem_singleton.mp mem
      refine ⟨named, fun action bound => ?_⟩
      obtain ⟨word, first, found⟩ := Option.bind_eq_some_iff.mp bound
      exact actionName?_eq_some (all word (by simp [names, List.mem_of_head? first])) found
    | some scope =>
      obtain ⟨kind, owner⟩ := scope
      have owned : IsWord owner := all owner (by simp [names])
      cases kind with
      | actor => simp [facts, Fact.WellFormed, Link.Admits, owned, named]
      | state => simp [facts, Fact.WellFormed, Link.Admits, owned, named]
      | event => exact nofun

/-- What a file says is well formed. -/
theorem wellFormed_of_mem_facts {source : Source} {fact : Fact}
    (mem : fact ∈ (Reading.ofSource source).facts) : fact.WellFormed := by
  rcases List.mem_append.mp mem with mem | mem
  · obtain ⟨⟨line, number⟩, -, mem⟩ := List.mem_flatMap.mp mem
    dsimp only at mem
    cases found : Header.ofWords? (words line) with
    | none => simp [found] at mem
    | some header =>
      rw [found, Option.map_some, Option.getD_some] at mem
      exact Header.wellFormed_of_mem_facts (fun _ => isWord_of_mem_words) found mem
  · obtain ⟨⟨line, clause⟩, read, mem⟩ := List.mem_flatMap.mp mem
    have named : ∀ name ∈ clause.names, IsWord name := (isWord_readClauses source.text).1 _ read
    exact Clause.wellFormed_of_mem_facts named _ fact mem

/-! ## Names in tables -/

end Script

namespace Table

variable {κ α : Type} [Ord κ] [Std.TransOrd κ] [Std.LawfulEqOrd κ] [DecidableEq κ]
  {P : κ → α → Prop} {table : Table κ α} {key : κ} {value : α}

/-- Every entry of a table has a property. -/
def All (P : κ → α → Prop) (table : Table κ α) : Prop :=
  ∀ key value, table[key]? = some value → P key value

omit [Std.LawfulEqOrd κ] [DecidableEq κ] in
theorem All.empty : All P (∅ : Table κ α) := by
  intro key value found
  rw [Std.ExtTreeMap.getElem?_empty] at found
  cases found

theorem All.insert (all : All P table) (entry : P key value) : All P (table.insert key value) := by
  intro other found known
  rw [getElem?_insert] at known
  split at known
  next same =>
    subst same
    cases known
    exact entry
  next => exact all other found known

theorem All.insertIfNew (all : All P table) (entry : P key value) :
    All P (table.insertIfNew key value) := by
  intro other found known
  rw [getElem?_insertIfNew] at known
  split at known
  next same =>
    subst same
    cases old : table[key]? with
    | none =>
      rw [old] at known
      cases known
      exact entry
    | some value' =>
      rw [old] at known
      cases known
      exact all key value' old
  next => exact all other found known

end Table

namespace Script

/-- Symbol tables whose names are all words, where what stands for an action names one, and where
every owner refers to a name. -/
structure SymbolTables.WellFormed (tables : SymbolTables) : Prop where
  actions : Table.All (fun name action => action.name = name ∧ action.IsWorded) tables.actions
  ai : Table.All (fun name bound => IsWord name ∧ ∀ action, bound = some action →
    IsActionName action) tables.ai
  initialActions : Table.All (fun actor action => IsWord actor ∧ IsActionName action)
    tables.initialActions
  actorOrigins : Table.All (fun actor _ => IsWord actor) tables.actorOrigins
  relations : ∀ link, Table.All (fun owner names => IsWord owner ∧ (∃ name, name ∈ names) ∧
    ∀ name ∈ names, link.Admits name) (tables.relation link)

theorem SymbolTables.WellFormed.empty : SymbolTables.empty.WellFormed where
  actions := .empty
  ai := .empty
  initialActions := .empty
  actorOrigins := .empty
  relations link := by cases link <;> exact .empty

theorem SymbolTables.WellFormed.record {tables : SymbolTables} {fact : Fact}
    (formed : tables.WellFormed) (said : fact.WellFormed) : (tables.record fact).WellFormed := by
  cases fact with
  | defines action => exact { formed with actions := formed.actions.insert ⟨rfl, said⟩ }
  | mentions action => exact { formed with actions := formed.actions.insertIfNew ⟨rfl, said⟩ }
  | binds ai bound => exact { formed with ai := formed.ai.insert said }
  | declares ai bound => exact { formed with ai := formed.ai.insertIfNew said }
  | starts actor action =>
    exact { formed with initialActions := formed.initialActions.insert said }
  | heads actor origin =>
    exact { formed with actorOrigins := formed.actorOrigins.insertIfNew said }
  | uses link owner name =>
    obtain ⟨owned, admits⟩ := said
    exact {
      actions := by
        rw [actions_changedBy]
        exact formed.actions
      ai := by
        rw [ai_changedBy]
        exact formed.ai
      initialActions := by
        rw [initialActions_changedBy]
        exact formed.initialActions
      actorOrigins := by
        rw [actorOrigins_changedBy]
        exact formed.actorOrigins
      relations := fun other => by
        change Table.All _ ((tables.relate link owner name).relation other)
        rw [relation_relate]
        split
        next same =>
          subst same
          refine (formed.relations link).insert ⟨owned, ⟨name, Std.ExtTreeSet.mem_insert_self⟩, ?_⟩
          intro used mem
          rcases Std.ExtTreeSet.mem_insert.mp mem with new | known
          · rwa [← Std.LawfulEqCmp.eq_of_compare new]
          · obtain ⟨names, found, mem⟩ := Relation.holds_iff.mp known
            exact (formed.relations link owner names found).2.2 used mem
        next => exact formed.relations other }

theorem SymbolTables.WellFormed.recordAll {tables : SymbolTables} {facts : List Fact}
    (formed : tables.WellFormed) (said : ∀ fact ∈ facts, fact.WellFormed) :
    (tables.recordAll facts).WellFormed := by
  induction facts generalizing tables with
  | nil => exact formed
  | cons fact facts ih =>
    obtain ⟨first, rest⟩ := List.forall_mem_cons.mp said
    exact ih (formed.record first) rest

theorem SymbolTables.WellFormed.ofSources (sources : List Source) :
    (SymbolTables.ofSources sources).WellFormed := by
  rw [ofSources_eq]
  refine WellFormed.empty.recordAll fun fact mem => ?_
  obtain ⟨source, -, said⟩ := List.mem_flatMap.mp mem
  exact wellFormed_of_mem_facts said

theorem SymbolTables.WellFormed.admits_of_holds {tables : SymbolTables} (formed : tables.WellFormed)
    (link : Link) {owner name : String} (holds : (tables.relation link).Holds owner name) :
    link.Admits name := by
  obtain ⟨names, found, mem⟩ := Relation.holds_iff.mp holds
  exact (formed.relations link owner names found).2.2 name mem

/-- What an actor can display is the name of an action. -/
theorem SymbolTables.WellFormed.isActionName_of_displays {tables : SymbolTables}
    (formed : tables.WellFormed) {actor action : String}
    (displays : tables.Displays actor action) : IsActionName action := by
  cases displays with
  | used use =>
    rcases use with direct | ⟨_, _, -, -, shared⟩
    · exact formed.admits_of_holds .actorAction direct
    · exact formed.admits_of_holds .stateAction shared
  | initial start => exact (formed.initialActions actor action start).2
  | bound _ binding => exact (formed.ai _ _ binding).2 action rfl

/-- How many owners a summary counts for a link. -/
def SymbolSummary.owners (summary : SymbolSummary) : Link → Nat
  | .actorAction => summary.actorsUsingActions
  | .stateAction => summary.statesUsingActions
  | .actorAi => summary.actorsUsingAi
  | .stateAi => summary.statesUsingAi
  | .actorState => summary.actorsCallingStates
  | .stateState => summary.statesCallingStates

/-- The tables of a corpus are well formed, so their summary counts the owners that refer to a
name, and no others. -/
theorem ofSources_wellFormed (sources : List Source) :
    let tables := SymbolTables.ofSources sources
    tables.WellFormed ∧ ∀ link, tables.summary.owners link =
      (tables.relation link).toList.countP fun (_, names) => !names.isEmpty := by
  intro tables
  have formed : tables.WellFormed := .ofSources sources
  refine ⟨formed, fun link => ?_⟩
  have counted : tables.summary.owners link = (tables.relation link).toList.length := by
    rw [Std.ExtTreeMap.length_toList]
    cases link <;> rfl
  rw [counted, eq_comm, List.countP_eq_length]
  rintro ⟨owner, names⟩ listed
  obtain ⟨-, ⟨name, mem⟩, -⟩ := formed.relations link owner names
    (Std.ExtTreeMap.mem_toList_iff_getElem?_eq_some.mp listed)
  simpa using Std.ExtTreeSet.ne_empty_of_mem mem

end Script
end TileCensus
