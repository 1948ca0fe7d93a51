import TileCensus.Script.Symbols

/-!
# What recorded facts leave in a table

Each table of names is changed by two kinds of fact: those that put a value in place of any other,
and those that fill a gap. Whatever their order, what a name has in the end is the last value that
was put, else the value it had before, else the first one that filled the gap
(`Change.getElem?_foldl_apply`). The law carries over to every table whose changes can be told from
the facts alone (`SymbolTables.getElem?_recordAll`).
-/

namespace TileCensus.Script

/-! ## Changes of a table -/

/-- A change of a table at a name. -/
inductive Change (α : Type) where
  /-- Sets the value, whatever it was. -/
  | put (name : String) (value : α)
  /-- Sets the value where there is none. -/
  | fill (name : String) (value : α)

namespace Change

variable {α : Type}

/-- Makes a change. -/
def apply (table : Table String α) : Change α → Table String α
  | put name value => table.insert name value
  | fill name value => table.insertIfNew name value

/-- The entry that a change puts. -/
def put? : Change α → Option (String × α)
  | put name value => some (name, value)
  | fill _ _ => none

/-- The entry that a change fills a gap with. -/
def fill? : Change α → Option (String × α)
  | put _ _ => none
  | fill name value => some (name, value)

theorem getElem?_foldl_apply (table : Table String α) (changes : List (Change α)) (name : String) :
    (changes.foldl apply table)[name]? =
      ((changes.filterMap put?).reverse.lookup name).or
        (table[name]?.or ((changes.filterMap fill?).lookup name)) := by
  induction changes generalizing table with
  | nil => simp
  | cons change changes ih =>
    rw [List.foldl_cons, ih]
    cases change with
    | put key value =>
      have puts : ((put key value :: changes).filterMap put?).reverse =
          (changes.filterMap put?).reverse ++ [(key, value)] := by
        simp [put?]
      have fills : (put key value :: changes).filterMap fill? = changes.filterMap fill? := rfl
      rw [puts, fills, List.lookup_append, Option.or_assoc]
      congr 1
      rw [apply, Table.getElem?_insert]
      by_cases same : key = name
      · subst same
        simp
      · have other : (name == key) = false := by simpa using Ne.symm same
        rw [if_neg same, List.lookup_cons, other]
        rfl
    | fill key value =>
      have fills : (fill key value :: changes).filterMap fill? =
          (key, value) :: changes.filterMap fill? := by
        simp [fill?]
      have puts : (fill key value :: changes).filterMap put? = changes.filterMap put? := rfl
      rw [fills, puts]
      congr 1
      rw [apply, Table.getElem?_insertIfNew]
      by_cases same : key = name
      · subst same
        cases table[key]? <;> simp
      · have other : (name == key) = false := by simpa using Ne.symm same
        rw [if_neg same, List.lookup_cons, other]

/-- Changes that are made a second time change nothing. What they have put meanwhile over a later
value is put over again. -/
theorem foldl_apply_twice (table : Table String α) (changes : List (Change α)) :
    changes.foldl apply (changes.foldl apply table) = changes.foldl apply table := by
  refine Std.ExtTreeMap.ext_getElem? fun name => ?_
  rw [getElem?_foldl_apply, getElem?_foldl_apply]
  cases (changes.filterMap put?).reverse.lookup name with
  | some value => rfl
  | none =>
    cases table[name]? with
    | some value => rfl
    | none => simp

/-- The value that a change sets. -/
def value : Change α → α
  | put _ value | fill _ value => value

theorem eq_value_or_of_getElem?_apply {table : Table String α} {change : Change α} {key : String}
    {value : α} (found : (apply table change)[key]? = some value) :
    table[key]? = some value ∨ change.value = value := by
  cases change with
  | put name other =>
    rw [apply, Table.getElem?_insert] at found
    split at found
    next => exact .inr (Option.some_inj.mp found)
    next => exact .inl found
  | fill name other =>
    rw [apply, Table.getElem?_insertIfNew] at found
    split at found
    next same =>
      subst same
      cases known : table[name]? with
      | none => exact .inr (by simpa [known, Change.value] using found)
      | some old => exact .inl (by simpa [known] using found)
    next => exact .inl found

/-- What a name has after some changes, it had before or one of them has set. -/
theorem exists_of_getElem?_foldl_apply {table : Table String α} {changes : List (Change α)}
    {key : String} {value : α} (found : (changes.foldl apply table)[key]? = some value) :
    table[key]? = some value ∨ ∃ change ∈ changes, change.value = value := by
  induction changes generalizing table with
  | nil => exact .inl found
  | cons change changes ih =>
    rcases ih found with before | ⟨later, mem, made⟩
    · refine (eq_value_or_of_getElem?_apply before).imp_right fun made => ?_
      exact ⟨change, List.mem_cons_self, made⟩
    · exact .inr ⟨later, List.mem_cons_of_mem _ mem, made⟩

/-- The name that a change is made at. -/
def name : Change α → String
  | put name _ => name
  | fill name _ => name

theorem mem_foldl_apply_iff {table : Table String α} {changes : List (Change α)} {key : String} :
    key ∈ changes.foldl apply table ↔ key ∈ table ∨ ∃ change ∈ changes, change.name = key := by
  induction changes generalizing table with
  | nil => simp
  | cons change changes ih =>
    have step : key ∈ apply table change ↔ key ∈ table ∨ change.name = key := by
      cases change with
      | put key' value =>
        rw [apply, Std.ExtTreeMap.mem_insert, Std.LawfulEqOrd.compare_eq_iff_eq, or_comm]
        rfl
      | fill key' value =>
        rw [apply, Std.ExtTreeMap.mem_insertIfNew, Std.LawfulEqOrd.compare_eq_iff_eq, or_comm]
        rfl
    rw [List.foldl_cons, ih, step, or_assoc]
    simp

end Change

/-! ## Changes that facts make -/

namespace Fact

/-- What a fact changes of the actions. -/
def actionChange? : Fact → Option (Change ActionDef)
  | defines action => some (.put action.name action)
  | mentions action => some (.fill action.name action)
  | _ => none

/-- What a fact changes of the AI routines. -/
def aiChange? : Fact → Option (Change (Option String))
  | binds ai action => some (.put ai action)
  | declares ai action => some (.fill ai action)
  | _ => none

/-- What a fact changes of the initial actions. -/
def initialActionChange? : Fact → Option (Change String)
  | starts actor action => some (.put actor action)
  | _ => none

/-- What a fact changes of the origins of actors. -/
def originChange? : Fact → Option (Change Location)
  | heads actor origin => some (.fill actor origin)
  | _ => none

end Fact

namespace SymbolTables

/-- A table of the symbol tables is changed by facts as `change?` says. -/
def ChangedBy {α : Type} (table : SymbolTables → Table String α)
    (change? : Fact → Option (Change α)) : Prop :=
  ∀ tables fact, table (record tables fact) =
    (change? fact).elim (table tables) (Change.apply (table tables))

theorem actions_changedBy : ChangedBy actions Fact.actionChange? := by
  intro tables fact
  cases fact with
  | uses link owner name => cases link <;> rfl
  | _ => rfl

theorem ai_changedBy : ChangedBy ai Fact.aiChange? := by
  intro tables fact
  cases fact with
  | uses link owner name => cases link <;> rfl
  | _ => rfl

theorem initialActions_changedBy : ChangedBy initialActions Fact.initialActionChange? := by
  intro tables fact
  cases fact with
  | uses link owner name => cases link <;> rfl
  | _ => rfl

theorem actorOrigins_changedBy : ChangedBy actorOrigins Fact.originChange? := by
  intro tables fact
  cases fact with
  | uses link owner name => cases link <;> rfl
  | _ => rfl

section

variable {α : Type} {table : SymbolTables → Table String α} {change? : Fact → Option (Change α)}

theorem ChangedBy.recordAll_eq (changed : ChangedBy table change?) (tables : SymbolTables)
    (facts : List Fact) :
    table (tables.recordAll facts) =
      (facts.filterMap change?).foldl Change.apply (table tables) := by
  induction facts generalizing tables with
  | nil => rfl
  | cons fact facts ih =>
    have step := changed tables fact
    rw [recordAll, List.foldl_cons, List.filterMap_cons]
    refine (ih _).trans ?_
    rw [step]
    cases change? fact <;> rfl

/-- What a name has after some facts: what was put last, else what it had, else what first filled
the gap. -/
theorem getElem?_recordAll (changed : ChangedBy table change?) (tables : SymbolTables)
    (facts : List Fact) (name : String) :
    (table (tables.recordAll facts))[name]? =
      (((facts.filterMap change?).filterMap Change.put?).reverse.lookup name).or
        ((table tables)[name]?.or
          (((facts.filterMap change?).filterMap Change.fill?).lookup name)) := by
  rw [changed.recordAll_eq, Change.getElem?_foldl_apply]

theorem ChangedBy.recordAll_twice (changed : ChangedBy table change?) (tables : SymbolTables)
    (facts : List Fact) :
    table ((tables.recordAll facts).recordAll facts) = table (tables.recordAll facts) := by
  rw [changed.recordAll_eq, changed.recordAll_eq, Change.foldl_apply_twice]

/-- The names of a table are those it had and those it was changed at. -/
theorem mem_recordAll_iff (changed : ChangedBy table change?) {tables : SymbolTables}
    {facts : List Fact} {name : String} :
    name ∈ table (tables.recordAll facts) ↔
      name ∈ table tables ∨ ∃ fact ∈ facts, (change? fact).map Change.name = some name := by
  rw [changed.recordAll_eq, Change.mem_foldl_apply_iff]
  simp only [List.mem_filterMap, Option.map_eq_some_iff]
  refine or_congr_right ⟨?_, ?_⟩
  · rintro ⟨change, ⟨fact, mem, made⟩, named⟩
    exact ⟨fact, mem, change, made, named⟩
  · rintro ⟨fact, mem, change, made, named⟩
    exact ⟨change, ⟨fact, mem, made⟩, named⟩

end

/-! ## Pairs that facts relate -/

theorem holds_record_iff {tables : SymbolTables} {fact : Fact} {link : Link}
    {owner name : String} :
    ((tables.record fact).relation link).Holds owner name ↔
      (tables.relation link).Holds owner name ∨ fact = .uses link owner name := by
  cases fact with
  | uses other user used =>
    change ((tables.relate other user used).relation link).Holds owner name ↔ _
    rw [relation_relate, Relation.Holds, Relation.Holds]
    by_cases same : other = link
    · subst same
      rw [if_pos rfl, Relation.namesOf_relate]
      by_cases owned : user = owner
      · subst owned
        have inserted : name ∈ ((tables.relation other).namesOf user).insert used ↔
            used = name ∨ name ∈ (tables.relation other).namesOf user := by
          rw [Std.ExtTreeSet.mem_insert, Std.LawfulEqOrd.compare_eq_iff_eq]
        rw [if_pos rfl, inserted, or_comm]
        simp
      · simp [owned]
    · simp [same]
  | _ => cases link <;> simp [record, relation]

/-- What is related after some facts was related before or is a use among them. -/
theorem holds_recordAll_iff {tables : SymbolTables} {facts : List Fact} {link : Link}
    {owner name : String} :
    ((tables.recordAll facts).relation link).Holds owner name ↔
      (tables.relation link).Holds owner name ∨ .uses link owner name ∈ facts := by
  induction facts generalizing tables with
  | nil => simp [recordAll]
  | cons fact facts ih =>
    change ((recordAll (tables.record fact) facts).relation link).Holds owner name ↔ _
    rw [ih, holds_record_iff, or_assoc, List.mem_cons, eq_comm]

theorem mem_relation_record_iff {tables : SymbolTables} {fact : Fact} {link : Link}
    {owner : String} :
    owner ∈ (tables.record fact).relation link ↔
      owner ∈ tables.relation link ∨ ∃ name, fact = .uses link owner name := by
  cases fact with
  | uses other user used =>
    change owner ∈ (tables.relate other user used).relation link ↔ _
    rw [relation_relate]
    by_cases same : other = link
    · subst same
      rw [if_pos rfl, Relation.mem_relate_iff]
      simp
    · simp [same]
  | _ => cases link <;> simp [record, relation]

/-- The owners in a relation are those it had and those that some fact gives a name. -/
theorem mem_relation_recordAll_iff {tables : SymbolTables} {facts : List Fact} {link : Link}
    {owner : String} :
    owner ∈ (tables.recordAll facts).relation link ↔
      owner ∈ tables.relation link ∨ ∃ name, .uses link owner name ∈ facts := by
  induction facts generalizing tables with
  | nil => simp [recordAll]
  | cons fact facts ih =>
    change owner ∈ (recordAll (tables.record fact) facts).relation link ↔ _
    rw [ih, mem_relation_record_iff, or_assoc, ← exists_or]
    simp only [List.mem_cons, eq_comm]

end SymbolTables

end TileCensus.Script
