import TileCensus.Proofs.Recording
import TileCensus.Proofs.TokenPass

/-!
# Which declaration of a name counts

A corpus can declare a name many times over: in full or bare, in any file, on any line, before or
after a violation that ends the token pass. The entries that count are listed here from the words
of the cleaned lines and from the rounds of the token pass, in the order of the corpus. The law
at the end says that the last full declaration of a name counts, and only where there is none the
first bare one.
-/

namespace TileCensus.Script

/-! ## Full declarations -/

/-- The action that the words of a line at a place define in full. -/
def fullAction? (origin : Location) : List String → Option (String × ActionDef)
  | "action" :: name :: start :: rest =>
    if Literal.isLiteral start then some (name, .ofArguments name (start :: rest) origin) else none
  | _ => none

/-- The AI routine that the words of a line bind. -/
def boundAi? : List String → Option (String × Option String)
  | "ai" :: name :: action :: _ =>
    if isConstantLike action then some (name, actionName? action) else none
  | _ => none

/-- The actor whose initial action the words of a line name. -/
def initialAction? : List String → Option (String × String)
  | "actor" :: name :: strength :: action :: _ =>
    if isConstantLike strength && isConstantLike action then
      (actionName? action).map fun action => (name, action)
    else none
  | "useractor" :: _ :: name :: strength :: action :: _ =>
    if isConstantLike strength && isConstantLike action then
      (actionName? action).map fun action => (name, action)
    else none
  | _ => none

/-- The full action definitions of a file. -/
def fullActions (source : Source) : List (String × ActionDef) :=
  (cleanedText source.text).filterMap fun (line, number) =>
    fullAction? ⟨source.path, number⟩ (words line)

/-- The AI bindings of a file. -/
def boundAis (source : Source) : List (String × Option String) :=
  (cleanedText source.text).filterMap fun (line, _) => boundAi? (words line)

/-- The initial actions of a file. -/
def initialActions (source : Source) : List (String × String) :=
  (cleanedText source.text).filterMap fun (line, _) => initialAction? (words line)

/-! ## Bare declarations -/

namespace Round

/-- The action that a round mentions outside all scopes. -/
def bareAction? (path : String) (round : Round) : Option (String × ActionDef) :=
  if round.keyword.word = "action" ∧ round.scopes = Scopes.empty then
    match round.rest with
    | [] => none
    | name :: rest =>
      if Literal.isLiteral name.word then none
      else
        let arguments := sameLineWords round.keyword.line 3 rest
        some (name.word, .ofArguments name.word arguments ⟨path, round.keyword.line⟩)
  else none

/-- The AI routine that a round declares outside all scopes. -/
def bareAi? (round : Round) : Option (String × Option String) :=
  if round.keyword.word = "ai" ∧ round.scopes = Scopes.empty then
    match round.rest with
    | [] => none
    | name :: rest =>
      some (name.word, (sameLineWords round.keyword.line 1 rest).head?.bind actionName?)
  else none

end Round

/-- The bare action definitions that the token pass over a file reaches. -/
def bareActions (source : Source) : List (String × ActionDef) :=
  (roundsOf source).filterMap (Round.bareAction? source.path)

/-- The bare AI routines that the token pass over a file reaches. -/
def bareAis (source : Source) : List (String × Option String) :=
  (roundsOf source).filterMap Round.bareAi?

/-! ## Entries of headers and clauses -/

namespace Header

/-- The action that a header defines in full. -/
def fullAction? (origin : Location) : Header → Option (String × ActionDef)
  | action name arguments => some (name, .ofArguments name arguments origin)
  | _ => none

/-- The AI routine that a header binds. -/
def boundAi? : Header → Option (String × Option String)
  | ai name bound => some (name, bound)
  | _ => none

/-- The actor whose initial action a header names. -/
def initialAction? : Header → Option (String × String)
  | actor name initial => initial.map fun initial => (name, initial)
  | _ => none

theorem bind_fullAction? (origin : Location) (words : List String) :
    (ofWords? words).bind (fullAction? origin) = Script.fullAction? origin words := by
  fun_cases ofWords? words with
  | case1 name start rest literal =>
    rw [Script.fullAction?, if_pos literal]
    rfl
  | case2 name start rest literal =>
    rw [Script.fullAction?, if_neg literal]
    rfl
  | case9 => simp [Script.fullAction?]
  | _ => rfl

theorem bind_boundAi? (words : List String) :
    (ofWords? words).bind boundAi? = Script.boundAi? words := by
  fun_cases ofWords? words with
  | case3 name action rest constant =>
    rw [Script.boundAi?, if_pos constant]
    rfl
  | case4 name action rest constant =>
    rw [Script.boundAi?, if_neg constant]
    rfl
  | case9 => simp [Script.boundAi?]
  | _ => rfl

theorem bind_initialAction? (words : List String) :
    (ofWords? words).bind initialAction? = Script.initialAction? words := by
  fun_cases ofWords? words with
  | case5 name strength action rest constant =>
    rw [Script.initialAction?, if_pos constant]
    rfl
  | case6 name strength action rest constant =>
    rw [Script.initialAction?, if_neg constant]
    rfl
  | case7 kind name strength action rest constant =>
    rw [Script.initialAction?, if_pos constant]
    rfl
  | case8 kind name strength action rest constant =>
    rw [Script.initialAction?, if_neg constant]
    rfl
  | case9 => simp [Script.initialAction?]
  | _ => rfl

end Header

namespace Clause

/-- The action that a clause mentions. -/
def bareAction? (origin : Location) : Clause → Option (String × ActionDef)
  | action none name arguments =>
    (actionName? name).map fun name => (name, .ofArguments name arguments origin)
  | _ => none

/-- The AI routine that a clause declares. -/
def bareAi? : Clause → Option (String × Option String)
  | ai none name arguments => some (name, arguments.head?.bind actionName?)
  | _ => none

end Clause

namespace Round

theorem bind_bareAction? (path : String) (round : Round) :
    round.clause?.bind (Clause.bareAction? ⟨path, round.keyword.line⟩) =
      round.bareAction? path := by
  unfold Round.bareAction?
  by_cases word : round.keyword.word = "action"
  · rw [round.clause?_of_directive (.inl word)]
    simp only [word, true_and, ← Scopes.current?_eq_none_iff]
    cases round.rest with
    | nil => simp
    | cons name rest =>
      cases round.scopes.current? with
      | some scope => rfl
      | none =>
        cases literal : Literal.isLiteral name.word with
        | true => simp [Clause.ofDirective?, Clause.bareAction?, actionName?, literal]
        | false =>
          simp [Clause.ofDirective?, Clause.bareAction?, actionName?, argumentLimit, literal]
  · rw [if_neg (fun h => word h.1)]
    cases made : round.clause? with
    | none => rfl
    | some clause =>
      cases clause with
      | action => exact absurd (word_of_clause? made rfl) word
      | _ => rfl

theorem bind_bareAi? (round : Round) : round.clause?.bind Clause.bareAi? = round.bareAi? := by
  unfold Round.bareAi?
  by_cases word : round.keyword.word = "ai"
  · rw [round.clause?_of_directive (.inr word)]
    simp only [word, true_and, ← Scopes.current?_eq_none_iff]
    cases round.rest with
    | nil => simp
    | cons name rest => cases round.scopes.current? <;> rfl
  · rw [if_neg (fun h => word h.1)]
    cases made : round.clause? with
    | none => rfl
    | some clause =>
      cases clause with
      | ai => exact absurd (word_of_clause? made rfl) word
      | _ => rfl

end Round

/-! ## Entries among facts -/

section

variable {α : Type} {change? : Fact → Option (Change α)}
  {header? : Location → Header → Option (String × α)}
  {clause? : Location → Clause → Option (String × α)}

/-- The entries that the header lines of a file have. -/
def headerEntries (header? : Location → Header → Option (String × α)) (source : Source) :
    List (String × α) :=
  (cleanedText source.text).filterMap fun (line, number) =>
    (Header.ofWords? (words line)).bind (header? ⟨source.path, number⟩)

/-- The entries that the rounds of the token pass over a file have. -/
def roundEntries (clause? : Location → Clause → Option (String × α)) (source : Source) :
    List (String × α) :=
  (roundsOf source).filterMap fun round =>
    round.clause?.bind (clause? ⟨source.path, round.keyword.line⟩)

/-- Of the facts that change a table, those of a header put its entry and those of a clause fill a
gap with its entry. -/
structure Declares (change? : Fact → Option (Change α))
    (header? : Location → Header → Option (String × α))
    (clause? : Location → Clause → Option (String × α)) : Prop where
  headers : ∀ origin header, (Header.facts origin header).filterMap change? =
    (header? origin header).toList.map fun entry => .put entry.1 entry.2
  clauses : ∀ origin clause, (Clause.facts origin clause).filterMap change? =
    (clause? origin clause).toList.map fun entry => .fill entry.1 entry.2

theorem Declares.filterMap_facts (declares : Declares change? header? clause?) (source : Source) :
    (Reading.ofSource source).facts.filterMap change? =
      (headerEntries header? source).map (fun entry => .put entry.1 entry.2) ++
        (roundEntries clause? source).map fun entry => .fill entry.1 entry.2 := by
  rw [facts_ofSource, List.filterMap_append]
  unfold headerFacts headerEntries roundEntries
  rw [List.filterMap_flatMap, List.filterMap_flatMap, List.filterMap_eq_flatMap_toList,
    List.filterMap_eq_flatMap_toList, List.map_flatMap, List.map_flatMap]
  congr 1
  · refine List.flatMap_congr fun entry _ => ?_
    obtain ⟨line, number⟩ := entry
    dsimp only
    cases Header.ofWords? (words line) with
    | none => rfl
    | some header => exact declares.headers _ header
  · refine List.flatMap_congr fun round _ => ?_
    unfold Round.facts
    cases round.clause? with
    | none => rfl
    | some clause => exact declares.clauses _ clause

theorem Declares.filterMap_put (declares : Declares change? header? clause?) (source : Source) :
    ((Reading.ofSource source).facts.filterMap change?).filterMap Change.put? =
      headerEntries header? source := by
  rw [declares.filterMap_facts, List.filterMap_append, List.filterMap_map, List.filterMap_map]
  simp [Function.comp_def, Change.put?]

theorem Declares.filterMap_fill (declares : Declares change? header? clause?) (source : Source) :
    ((Reading.ofSource source).facts.filterMap change?).filterMap Change.fill? =
      roundEntries clause? source := by
  rw [declares.filterMap_facts, List.filterMap_append, List.filterMap_map, List.filterMap_map]
  simp [Function.comp_def, Change.fill?]

end

theorem headerEntries_fullAction : headerEntries Header.fullAction? = fullActions := by
  funext source
  simp only [fullActions, headerEntries, Header.bind_fullAction?]

theorem headerEntries_boundAi : headerEntries (fun _ => Header.boundAi?) = boundAis := by
  funext source
  simp only [boundAis, headerEntries, Header.bind_boundAi?]

theorem headerEntries_initialAction :
    headerEntries (fun _ => Header.initialAction?) = initialActions := by
  funext source
  simp only [initialActions, headerEntries, Header.bind_initialAction?]

theorem roundEntries_bareAction : roundEntries Clause.bareAction? = bareActions := by
  funext source
  simp only [bareActions, roundEntries, Round.bind_bareAction?]

theorem roundEntries_bareAi : roundEntries (fun _ => Clause.bareAi?) = bareAis := by
  funext source
  simp only [bareAis, roundEntries, Round.bind_bareAi?]

theorem actions_declares :
    Declares Fact.actionChange? Header.fullAction? Clause.bareAction? where
  headers origin header := by
    cases header with
    | actor name initial => cases initial <;> rfl
    | _ => rfl
  clauses origin clause := by
    fun_cases Clause.facts origin clause with
    | case7 owner name arguments literal =>
      -- a literal names no action, whoever owns the directive
      cases owner with
      | none => simp [Clause.bareAction?, literal]
      | some scope => rfl
    | case11 name arguments named word =>
      rw [Clause.bareAction?, word]
      rfl
    | _ => rfl

theorem ai_declares :
    Declares Fact.aiChange? (fun _ => Header.boundAi?) (fun _ => Clause.bareAi?) where
  headers origin header := by
    cases header with
    | actor name initial => cases initial <;> rfl
    | _ => rfl
  clauses origin clause := by
    fun_cases Clause.facts origin clause <;> rfl

theorem initialActions_declares :
    Declares Fact.initialActionChange? (fun _ => Header.initialAction?) (fun _ _ => none) where
  headers origin header := by
    cases header with
    | actor name initial => cases initial <;> rfl
    | _ => rfl
  clauses origin clause := by
    fun_cases Clause.facts origin clause <;> rfl

/-! ## Precedence -/

namespace SymbolTables

theorem getElem?_ofSources {α : Type} {table : SymbolTables → Table String α}
    {change? : Fact → Option (Change α)} {header? : Location → Header → Option (String × α)}
    {clause? : Location → Clause → Option (String × α)} (changed : ChangedBy table change?)
    (declares : Declares change? header? clause?) (blank : table empty = ∅)
    (sources : List Source) (name : String) :
    (table (ofSources sources))[name]? =
      ((sources.flatMap (headerEntries header?)).reverse.lookup name).or
        ((sources.flatMap (roundEntries clause?)).lookup name) := by
  rw [ofSources_eq, getElem?_recordAll changed, List.filterMap_flatMap, List.filterMap_flatMap,
    List.filterMap_flatMap, blank]
  simp only [declares.filterMap_put, declares.filterMap_fill]
  simp

/-- The names of a table are those that some header line or some round has an entry for. -/
theorem mem_ofSources_iff_exists_entry {α : Type} {table : SymbolTables → Table String α}
    {change? : Fact → Option (Change α)} {header? : Location → Header → Option (String × α)}
    {clause? : Location → Clause → Option (String × α)} (changed : ChangedBy table change?)
    (declares : Declares change? header? clause?) (blank : table empty = ∅)
    {sources : List Source} {name : String} :
    name ∈ table (ofSources sources) ↔ ∃ source ∈ sources,
      (∃ value, (name, value) ∈ headerEntries header? source) ∨
        ∃ value, (name, value) ∈ roundEntries clause? source := by
  rw [Std.ExtTreeMap.mem_iff_isSome_getElem?, getElem?_ofSources changed declares blank,
    Option.isSome_or, Bool.or_eq_true, List.lookup_isSome_iff, List.lookup_isSome_iff]
  simp only [List.mem_reverse, List.mem_flatMap, beq_iff_eq]
  constructor
  · rintro (⟨⟨_, value⟩, ⟨source, mem, entry⟩, rfl⟩ | ⟨⟨_, value⟩, ⟨source, mem, entry⟩, rfl⟩)
    · exact ⟨source, mem, .inl ⟨value, entry⟩⟩
    · exact ⟨source, mem, .inr ⟨value, entry⟩⟩
  · rintro ⟨source, mem, ⟨value, entry⟩ | ⟨value, entry⟩⟩
    · exact .inl ⟨_, ⟨source, mem, entry⟩, rfl⟩
    · exact .inr ⟨_, ⟨source, mem, entry⟩, rfl⟩

/-- What a name has in the tables of a corpus is its last full declaration, and where there is none
the first bare one; an initial action has no bare form. -/
theorem ofSources_precedence (sources : List Source) (name : String) :
    (ofSources sources).actions[name]? =
        ((sources.flatMap fullActions).reverse.lookup name).or
          ((sources.flatMap bareActions).lookup name) ∧
      (ofSources sources).ai[name]? =
        ((sources.flatMap boundAis).reverse.lookup name).or
          ((sources.flatMap bareAis).lookup name) ∧
      (ofSources sources).initialActions[name]? =
        (sources.flatMap Script.initialActions).reverse.lookup name := by
  refine ⟨?_, ?_, ?_⟩
  · rw [← headerEntries_fullAction, ← roundEntries_bareAction]
    exact getElem?_ofSources actions_changedBy actions_declares rfl sources name
  · rw [← headerEntries_boundAi, ← roundEntries_bareAi]
    exact getElem?_ofSources ai_changedBy ai_declares rfl sources name
  · have last :=
      getElem?_ofSources initialActions_changedBy initialActions_declares rfl sources name
    have no_bare :
        sources.flatMap (roundEntries fun _ _ => (none : Option (String × String))) = [] :=
      List.flatMap_eq_nil_iff.mpr fun source _ => by simp [roundEntries]
    rw [headerEntries_initialAction, no_bare, List.lookup_nil, Option.or_none] at last
    exact last

end SymbolTables

end TileCensus.Script
