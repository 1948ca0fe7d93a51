import TileCensus.Instance.Rule
import TileCensus.Toml.Error

/-!
# Rules files

A rules file gives the rules as the array `rule` of a TOML document; one that says nothing gives
no rule. A rule is a table with the keys `file`, `keywords`, `offset` and `bitmap`, or an array of
these four in this order. Further keys and items have no meaning. Every rule has a keyword and an
offset of at least one (`rulesOfText_ok`).
-/

namespace TileCensus.Instance

open Toml

/-! ## Reading values -/

/-- The path that a value is. -/
def fileOf (value : Value) : Fitting String := value.asText "path string"

/-- The keywords that a value has. -/
def keywordsOf (value : Value) : Fitting (List String) := do
  (← value.asItems).mapM (·.asText "a string")

/-- The number of tokens that a value is. -/
def offsetOf (value : Value) : Fitting Nat := value.asNat "usize"

/-- The category that a value names. -/
def categoryOf (value : Value) : Fitting Category :=
  value.asNamed Category.ofLabel? (Category.all.map Category.label)

/-- The fields of a rule, as far as they have been read. -/
structure RuleFields where
  file : Option String := none
  keywords : Option (List String) := none
  offset : Option Nat := none
  category : Option Category := none

namespace RuleFields

/-- Reads a field. -/
def read (fields : RuleFields) (entry : Key × Value) : Fitting RuleFields :=
  let (key, value) := entry
  Fitting.within (value.span?.or (some key.span)) <|
    match key.name with
    | "file" => return { fields with file := some (← fileOf value) }
    | "keywords" => return { fields with keywords := some (← keywordsOf value) }
    | "offset" => return { fields with offset := some (← offsetOf value) }
    | "bitmap" => return { fields with category := some (← categoryOf value) }
    | _ => return fields

/-- A field that every rule has. -/
def needed {α : Type} (name : String) (field : Option α) : Fitting α :=
  match field with
  | some value => .ok value
  | none => .error ⟨.missingField name, none⟩

/-- The rule with these fields. -/
def rule (fields : RuleFields) : Fitting Rule :=
  return ⟨← needed "file" fields.file, ← needed "keywords" fields.keywords,
    ← needed "offset" fields.offset, ← needed "bitmap" fields.category⟩

end RuleFields

/-- What is made of the item of a rule at an index. -/
def itemAt {α : Type} (items : List Value) (index : Nat) (read : Value → Fitting α) : Fitting α :=
  match items[index]? with
  | some value => read value
  | none => .error ⟨.wrongLength index "struct Rule with 4 elements", none⟩

/-- The rule that a value is. -/
def ruleOf (value : Value) : Fitting Rule :=
  Fitting.within value.span? <|
    match value with
    | .table table => do (← table.entries.foldlM RuleFields.read {}).rule
    | .moment _ => RuleFields.rule {}
    | .array items _ =>
      return ⟨← itemAt items 0 fileOf, ← itemAt items 1 keywordsOf, ← itemAt items 2 offsetOf,
        ← itemAt items 3 categoryOf⟩
    | _ => value.misfit "struct Rule"

/-- The rules in a document. -/
def rulesOf (document : TableOf Value) (text : String) : Except Toml.Error (List Rule) :=
  match document.find? "rule" with
  | none => .ok []
  | some (key, value) =>
    match (do (← value.asItems).mapM ruleOf : Fitting (List Rule)) with
    | .ok rules => .ok rules
    | .error ⟨kind, span⟩ =>
      .error ⟨text, (span.or value.span?).getD key.span, .mismatch kind⟩

/-! ## Rules -/

/-- Why a text gives no rules. -/
inductive RulesError where
  /-- The text is no document, or its rules do not have the form of rules. -/
  | malformed (path : String) (reason : Toml.Error)
  /-- A rule points at its own keyword. -/
  | zeroOffset (file : String)
  /-- A rule looks for nothing. -/
  | noKeywords (file : String)
deriving DecidableEq, Repr

namespace RulesError

/-- The failure in words, without what caused it. -/
def headline : RulesError → String
  | malformed path _ => "invalid rules file " ++ path
  | zeroOffset file => s!"rule for {file} has offset 0; the argument must follow the keyword"
  | noKeywords file => s!"rule for {file} has no keywords"

/-- The failure in words. -/
def message (failure : RulesError) : String :=
  match failure with
  | malformed _ reason => failure.headline ++ ": " ++ reason.message
  | _ => failure.headline

end RulesError

/-- Why a rule can find nothing. -/
def Rule.fault? (rule : Rule) : Option RulesError :=
  if rule.offset = 0 then some (.zeroOffset rule.file)
  else if rule.keywords = [] then some (.noKeywords rule.file)
  else none

/-- The rules in the text of a rules file. -/
def rulesOfText (path text : String) : Except RulesError (List Rule) :=
  match (do rulesOf (← documentOf text) text) with
  | .error reason => .error (.malformed path reason)
  | .ok rules =>
    match rules.findSome? Rule.fault? with
    | some reason => .error reason
    | none => .ok rules

theorem Rule.fault?_eq_none_iff {rule : Rule} :
    rule.fault? = none ↔ 0 < rule.offset ∧ rule.keywords ≠ [] := by
  simp only [fault?, Nat.pos_iff_ne_zero]
  split
  next zero => simp [zero]
  next nonzero => split <;> simp [*]

theorem rulesOfText_ok {path text : String} {rules : List Rule}
    (h : rulesOfText path text = .ok rules) :
    ∀ rule ∈ rules, 0 < rule.offset ∧ rule.keywords ≠ [] := by
  simp only [rulesOfText] at h
  split at h
  next => cases h
  next =>
    split at h
    next => cases h
    next sound =>
      cases h
      exact fun rule mem =>
        Rule.fault?_eq_none_iff.mp (List.findSome?_eq_none_iff.mp sound rule mem)

end TileCensus.Instance
