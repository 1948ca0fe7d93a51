import TileCensus.Proofs.Numerals

/-!
# Constant records

What a list of constants says line by line, and what the table of constants and the problems come
to over the whole list. A line with three fields or more declares its second field as a name if the
third is a value (`Declares`). A line that is not blank and is no such record is malformed
(`IsMalformed`).

A name has the value of the last line that declares it, so a later line that is malformed takes
nothing away. The malformed lines, and no others, are reported, each at its own number
(`ofText_exact`).
-/

namespace TileCensus.Constants

open Text

/-! ## One line -/

/-- What may stand in the third field of a record: `YES`, `NO` and the literals. -/
inductive IsValue : String → Int64 → Prop where
  | yes : IsValue "YES" 1
  | no : IsValue "NO" 0
  | literal {word : String} {value : Int64}
      (numeral : Literal.Denotes word.toList value.toInt) : IsValue word value

variable {line : List Char} {word name message : String} {value : Int64}

theorem recordValue?_eq_some_iff : recordValue? word = some value ↔ IsValue word value := by
  constructor
  · intro found
    unfold recordValue? at found
    split at found
    next =>
      cases found
      exact .yes
    next =>
      cases found
      exact .no
    next => exact .literal (Literal.value?_eq_some_iff.mp found)
  · intro is
    cases is with
    | yes => rfl
    | no => rfl
    | literal numeral =>
      have read := Literal.value?_eq_some_iff.mpr numeral
      have unread : ∀ word ∈ ["YES", "NO"], Literal.value? word = none := by decide
      unfold recordValue?
      split
      next => simp [unread] at read
      next => simp [unread] at read
      next => exact read

instance (word : String) : Decidable (∃ value, IsValue word value) :=
  decidable_of_iff ((recordValue? word).isSome = true) <| by
    simp only [Option.isSome_iff_exists, recordValue?_eq_some_iff]

/-- A line gives a name a value: its second field is the name and its third one says the value. -/
def Declares (line : List Char) (name : String) (value : Int64) : Prop :=
  ∃ first field rest, fields line = first :: name.toList :: field :: rest ∧
    IsValue (String.ofList field) value

/-- A line that is not blank has fewer than three fields, or a third one that is no value. -/
def IsMalformed (line : List Char) : Prop :=
  (∃ c ∈ line, isBlank c = false) ∧
    ((fields line).length < 3 ∨
      ∃ field ∈ (fields line)[2]?, ¬∃ value, IsValue (String.ofList field) value)

instance (line : List Char) : Decidable (IsMalformed line) :=
  inferInstanceAs (Decidable (_ ∧ _))

/-- What is said of a malformed line. -/
def complaint (line : List Char) : String :=
  (if (fields line).length < 3 then "incomplete define: " else "non integer define: ") ++
    String.ofList (trim line)

theorem readLine_of_fields_eq_nil (blank : fields line = []) : readLine line = .blank := by
  rw [readLine, blank]

theorem readLine_of_declares (declares : Declares line name value) :
    readLine line = .entry (name, value) := by
  obtain ⟨first, field, rest, split, is⟩ := declares
  simp [readLine, split, recordValue?_eq_some_iff.mpr is]

theorem readLine_of_isMalformed (malformed : IsMalformed line) :
    readLine line = .malformed (complaint line) := by
  obtain ⟨visible, wrong⟩ := malformed
  have filled : fields line ≠ [] := by simpa [fields_eq_nil_iff] using visible
  rcases split : fields line with _ | ⟨first, _ | ⟨name, _ | ⟨field, rest⟩⟩⟩
  · exact absurd split filled
  · simp [readLine, complaint, split]
  · simp [readLine, complaint, split]
  · have unvalued := wrong.resolve_left (by simp [split])
    have unread : recordValue? (String.ofList field) = none := by
      simpa [split, Option.eq_none_iff_forall_ne_some, recordValue?_eq_some_iff] using unvalued
    simp [readLine, complaint, split, unread]

/-- A line is blank, or it is a record, or it is malformed. -/
theorem declares_or_isMalformed (line : List Char) :
    fields line = [] ∨ (∃ name value, Declares line name value) ∨ IsMalformed line := by
  by_cases blank : fields line = []
  · exact .inl blank
  have visible : ∃ c ∈ line, isBlank c = false := by simpa [fields_eq_nil_iff] using blank
  refine .inr ?_
  rcases split : fields line with _ | ⟨first, _ | ⟨name, _ | ⟨field, rest⟩⟩⟩
  · exact absurd split blank
  · exact .inr ⟨visible, .inl (by simp [split])⟩
  · exact .inr ⟨visible, .inl (by simp [split])⟩
  · by_cases valued : ∃ value, IsValue (String.ofList field) value
    · obtain ⟨value, is⟩ := valued
      exact .inl ⟨String.ofList name, value, first, field, rest, by simp [split], is⟩
    · exact .inr ⟨visible, .inr ⟨field, by simp [split], valued⟩⟩

theorem readLine_eq_entry_iff :
    readLine line = .entry (name, value) ↔ Declares line name value := by
  refine ⟨fun read => ?_, readLine_of_declares⟩
  obtain blank | ⟨name', value', declares⟩ | malformed := declares_or_isMalformed line
  · rw [readLine_of_fields_eq_nil blank] at read
    cases read
  · rw [readLine_of_declares declares] at read
    cases read
    exact declares
  · rw [readLine_of_isMalformed malformed] at read
    cases read

theorem readLine_eq_malformed_iff :
    readLine line = .malformed message ↔ IsMalformed line ∧ message = complaint line := by
  constructor
  · intro read
    obtain blank | ⟨name, value, declares⟩ | malformed := declares_or_isMalformed line
    · rw [readLine_of_fields_eq_nil blank] at read
      cases read
    · rw [readLine_of_declares declares] at read
      cases read
    · rw [readLine_of_isMalformed malformed] at read
      cases read
      exact ⟨malformed, rfl⟩
  · rintro ⟨malformed, rfl⟩
    exact readLine_of_isMalformed malformed

/-! ## All lines -/

variable {text : String}

/-- The value a line gives a name. -/
def declared? (name : String) (line : List Char) : Option Int64 :=
  match readLine line with
  | .entry (other, value) => if other = name then some value else none
  | _ => none

theorem declared?_eq_some_iff : declared? name line = some value ↔ Declares line name value := by
  rw [← readLine_eq_entry_iff, declared?]
  cases readLine line with
  | entry entry =>
    obtain ⟨other, value⟩ := entry
    simp
  | blank => simp
  | malformed message => simp

theorem declared?_eq_none_iff :
    declared? name line = none ↔ ∀ value, ¬Declares line name value := by
  simp only [Option.eq_none_iff_forall_ne_some, ne_eq, declared?_eq_some_iff]

theorem getElem?_ofText (text name : String) :
    (ofText text)[name]? = (lines text).reverse.findSome? (declared? name) := by
  rw [ofText, Table.getElem?_ofList, RecordLine.entries, ← List.filterMap_reverse,
    ← List.head?_filterMap, List.filterMap_filterMap, List.head?_filterMap]
  congr 1
  funext line
  rw [declared?]
  cases readLine line with
  | entry entry => rfl
  | blank => rfl
  | malformed message => rfl

/-- A name stands for what the last line that declares it says. -/
theorem getElem?_ofText_eq_some_iff :
    (ofText text)[name]? = some value ↔
      ∃ before line after, lines text = before ++ line :: after ∧ Declares line name value ∧
        ∀ later ∈ after, ∀ other, ¬Declares later name other := by
  simp only [getElem?_ofText, List.findSome?_eq_some_iff, declared?_eq_some_iff,
    declared?_eq_none_iff]
  constructor
  · rintro ⟨after, line, before, split, declares, last⟩
    refine ⟨before.reverse, line, after.reverse, ?_, declares, by simpa using last⟩
    rw [← List.reverse_reverse (lines text), split]
    simp
  · rintro ⟨before, line, after, split, declares, last⟩
    exact ⟨after.reverse, line, before.reverse, by simp [split], declares, by simpa using last⟩

theorem getElem?_ofText_eq_none_iff :
    (ofText text)[name]? = none ↔ ∀ line ∈ lines text, ∀ value, ¬Declares line name value := by
  simp only [getElem?_ofText, List.findSome?_eq_none_iff, List.mem_reverse, declared?_eq_none_iff]

theorem mem_ofText_iff :
    name ∈ ofText text ↔ ∃ line ∈ lines text, ∃ value, Declares line name value := by
  rw [Std.ExtTreeMap.mem_iff_isSome_getElem?, ← Option.ne_none_iff_isSome, ne_eq,
    getElem?_ofText_eq_none_iff]
  push Not
  rfl

/-- The malformed lines are reported in order, each at its number, and nothing else is. -/
theorem problems_eq (file text : String) :
    problems file text = ((numbered (lines text)).filter fun entry => IsMalformed entry.1).map
      fun entry => ⟨.malformedRecord, some ⟨file, entry.2⟩, complaint entry.1⟩ := by
  rw [problems, RecordLine.diagnostics, ← List.filterMap_eq_map, List.filterMap_filter]
  refine List.filterMap_congr ?_
  rintro ⟨line, number⟩ -
  by_cases malformed : IsMalformed line
  · simp [malformed, readLine_of_isMalformed malformed]
  · simp only [malformed, decide_false, Bool.false_eq_true, if_false]
    split
    next message read => exact absurd (readLine_eq_malformed_iff.mp read).1 malformed
    next => rfl

/-- The table of a text gives each name the value of the last line that declares it, has no other
names, and has as many names as are declared. The problems of the text are its malformed lines. -/
theorem ofText_exact (file text : String) :
    (∀ name value, (ofText text)[name]? = some value ↔
      ∃ before line after, lines text = before ++ line :: after ∧ Declares line name value ∧
        ∀ later ∈ after, ∀ other, ¬Declares later name other) ∧
    (∀ name, (ofText text)[name]? = none ↔
      ∀ line ∈ lines text, ∀ value, ¬Declares line name value) ∧
    (∃ names : Finset String,
      (∀ name, name ∈ names ↔ ∃ line ∈ lines text, ∃ value, Declares line name value) ∧
      (ofText text).size = names.card) ∧
    problems file text = ((numbered (lines text)).filter fun entry => IsMalformed entry.1).map
      fun entry => ⟨.malformedRecord, some ⟨file, entry.2⟩, complaint entry.1⟩ := by
  refine ⟨fun name value => getElem?_ofText_eq_some_iff, fun name => getElem?_ofText_eq_none_iff,
    ⟨(ofText text).keys.toFinset, fun name => ?_, ?_⟩, problems_eq file text⟩
  · rw [List.mem_toFinset, Std.ExtTreeMap.mem_keys, mem_ofText_iff]
  · rw [List.toFinset_card_of_nodup (Table.nodup_keys _), Std.ExtTreeMap.length_keys]

/-- A record that cannot be read takes nothing away from the one before it. -/
example :
    let text := "define LIMIT 7\n\ndefine LIMIT 1x\n"
    (ofText text)["LIMIT"]? = some 7 ∧
      problems "a.con" text =
        [⟨.malformedRecord, some ⟨"a.con", 3⟩, "non integer define: define LIMIT 1x"⟩] :=
  ⟨by cbv, by cbv⟩

end TileCensus.Constants
