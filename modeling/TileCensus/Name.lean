import Std.Data.ExtTreeSet
import TileCensus.Table

/-!
# Sets of names and relations between names

Sets of names are listed in ascending order, which is that of code points. A relation maps each
owner to the set of names it refers to; an owner may be present with no name at all.
-/

namespace TileCensus

/-- A finite set of names. -/
abbrev NameSet := Std.ExtTreeSet String

theorem NameSet.mem_insertMany {set : NameSet} {names : List String} {name : String} :
    name ∈ set.insertMany names ↔ name ∈ set ∨ name ∈ names := by
  simp [Std.ExtTreeSet.mem_insertMany_list]

theorem NameSet.nodup_toList (set : NameSet) : set.toList.Nodup :=
  set.distinct_toList.imp Std.ReflCmp.ne_of_cmp_ne_eq

theorem NameSet.toList_ascending (set : NameSet) : set.toList.Pairwise (· < ·) :=
  set.ordered_toList.imp compareOfLessAndEq_eq_lt.mp

theorem Table.keys_ascending {α : Type} (table : Table String α) :
    table.keys.Pairwise (· < ·) :=
  table.ordered_keys.imp compareOfLessAndEq_eq_lt.mp

/-- Owner names with the sets of names they refer to. -/
abbrev Relation := Table String NameSet

namespace Relation

/-- The names an owner refers to; none for an owner that is absent. -/
def namesOf (relation : Relation) (owner : String) : NameSet := relation[owner]?.getD ∅

/-- Adds one pair. -/
def relate (relation : Relation) (owner name : String) : Relation :=
  relation.insert owner ((relation.namesOf owner).insert name)

/-- An owner refers to a name. -/
def Holds (relation : Relation) (owner name : String) : Prop := name ∈ relation.namesOf owner

theorem namesOf_relate (relation : Relation) (owner name other : String) :
    (relation.relate owner name).namesOf other =
      if owner = other then (relation.namesOf other).insert name else relation.namesOf other := by
  simp only [relate, namesOf, Table.getElem?_insert]
  split <;> simp_all

theorem holds_iff {relation : Relation} {owner name : String} :
    relation.Holds owner name ↔ ∃ names, relation[owner]? = some names ∧ name ∈ names := by
  rw [Holds, namesOf]
  cases relation[owner]? with
  | none => simp
  | some names => simp

theorem mem_of_holds {relation : Relation} {owner name : String}
    (holds : relation.Holds owner name) : owner ∈ relation := by
  obtain ⟨names, found, -⟩ := holds_iff.mp holds
  exact Table.mem_iff_exists_getElem?.mpr ⟨names, found⟩

theorem namesOf_of_not_mem {relation : Relation} {owner : String} (absent : owner ∉ relation) :
    relation.namesOf owner = ∅ := by
  rw [namesOf, Std.ExtTreeMap.getElem?_eq_none absent, Option.getD_none]

theorem mem_relate_iff {relation : Relation} {owner name other : String} :
    other ∈ relation.relate owner name ↔ other ∈ relation ∨ owner = other := by
  rw [relate, Std.ExtTreeMap.mem_insert, Std.LawfulEqOrd.compare_eq_iff_eq, or_comm]

/-- A relation is its owners, those without a name included, and its pairs. -/
theorem ext_holds {first second : Relation} (owners : ∀ owner, owner ∈ first ↔ owner ∈ second)
    (pairs : ∀ owner name, first.Holds owner name ↔ second.Holds owner name) : first = second := by
  refine Std.ExtTreeMap.ext_getElem? fun owner => ?_
  have present := owners owner
  have names := pairs owner
  rw [Std.ExtTreeMap.mem_iff_isSome_getElem?, Std.ExtTreeMap.mem_iff_isSome_getElem?] at present
  simp only [Holds, namesOf] at names
  cases left : first[owner]? with
  | none =>
    cases right : second[owner]? with
    | none => rfl
    | some others => simp [left, right] at present
  | some names' =>
    cases right : second[owner]? with
    | none => simp [left, right] at present
    | some others =>
      rw [left, right, Option.getD_some, Option.getD_some] at names
      rw [Std.ExtTreeSet.ext_mem names]

end Relation
end TileCensus
