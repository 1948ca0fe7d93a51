import Std.Data.ExtTreeMap

/-!
# Tables in key order

A table is a finite map that is listed in the order of its keys. How it came about is no part of
it: two tables that answer every look-up alike are equal. Look-ups after a change are given by
`getElem?_insert` and `getElem?_insertIfNew`, those in a table made of entries by `getElem?_ofList`,
and those in a table of the values of a function by `getElem?_ofList_map`.
-/

namespace TileCensus

/-- A finite map whose keys are in order. -/
abbrev Table (κ α : Type) [Ord κ] := Std.ExtTreeMap κ α

namespace Table

variable {κ α : Type} [Ord κ] [Std.TransOrd κ] [Std.LawfulEqOrd κ] [DecidableEq κ]

omit [Std.LawfulEqOrd κ] [DecidableEq κ] in
theorem mem_iff_exists_getElem? {table : Table κ α} {key : κ} :
    key ∈ table ↔ ∃ value, table[key]? = some value :=
  Std.ExtTreeMap.mem_iff_isSome_getElem?.trans Option.isSome_iff_exists

theorem getElem?_insert (table : Table κ α) (key other : κ) (value : α) :
    (table.insert key value)[other]? = if key = other then some value else table[other]? := by
  simp [Std.ExtTreeMap.getElem?_insert]

theorem getElem?_insertIfNew (table : Table κ α) (key other : κ) (value : α) :
    (table.insertIfNew key value)[other]? =
      if key = other then some (table[key]?.getD value) else table[other]? := by
  simp only [Std.ExtTreeMap.getElem?_insertIfNew, Std.LawfulEqOrd.compare_eq_iff_eq]
  by_cases same : key = other
  · subst same
    cases found : table[key]? with
    | none => simp [Std.ExtTreeMap.mem_iff_isSome_getElem?, found]
    | some known => simp [Std.ExtTreeMap.mem_iff_isSome_getElem?, found]
  · simp [same]

theorem getElem?_ofList_map {keys : List κ} (distinct : keys.Nodup) (value : κ → α) (key : κ) :
    (Std.ExtTreeMap.ofList (keys.map fun key => (key, value key)))[key]? =
      if key ∈ keys then some (value key) else none := by
  split
  next mem =>
    refine Std.ExtTreeMap.getElem?_ofList_of_mem Std.ReflCmp.compare_self ?_
      (List.mem_map.mpr ⟨key, mem, rfl⟩)
    refine List.pairwise_map.mpr (distinct.imp ?_)
    intro first second different same
    exact different (Std.LawfulEqCmp.eq_of_compare same)
  next absent =>
    refine Std.ExtTreeMap.getElem?_ofList_of_contains_eq_false ?_
    simpa [Function.comp_def] using absent

/-- A table of entries whose keys are distinct has these entries. -/
theorem getElem?_ofList_iff {entries : List (κ × α)} (distinct : (entries.map (·.1)).Nodup)
    {key : κ} {value : α} :
    (Std.ExtTreeMap.ofList entries)[key]? = some value ↔ (key, value) ∈ entries := by
  have listed {value : α} (mem : (key, value) ∈ entries) :
      (Std.ExtTreeMap.ofList entries)[key]? = some value := by
    refine Std.ExtTreeMap.getElem?_ofList_of_mem Std.ReflCmp.compare_self ?_ mem
    refine (List.pairwise_map.mp distinct).imp ?_
    intro first second different same
    exact different (Std.LawfulEqCmp.eq_of_compare same)
  refine ⟨fun found => ?_, listed⟩
  have known : key ∈ Std.ExtTreeMap.ofList entries := mem_iff_exists_getElem?.mpr ⟨value, found⟩
  obtain ⟨⟨_, other⟩, mem, rfl⟩ :=
    List.mem_map.mp (List.contains_iff_mem.mp (Std.ExtTreeMap.mem_ofList.mp known))
  obtain rfl := Option.some_inj.mp (found.symm.trans (listed mem))
  exact mem

/-- A key with several entries keeps the value of the last one. -/
theorem getElem?_ofList (entries : List (κ × α)) (key : κ) :
    (Std.ExtTreeMap.ofList entries)[key]? =
      entries.reverse.findSome? fun entry => if entry.1 = key then some entry.2 else none := by
  rw [Std.ExtTreeMap.ofList_eq_insertMany_empty, Std.ExtTreeMap.getElem?_insertMany_list]
  simp

omit [DecidableEq κ] in
theorem nodup_keys (table : Table κ α) : table.keys.Nodup :=
  table.distinct_keys.imp Std.ReflCmp.ne_of_cmp_ne_eq

omit [DecidableEq κ] in
/-- Tables with the same keys list them alike, whatever their values are. -/
theorem keys_eq_of_mem_iff {β : Type} {first : Table κ α} {second : Table κ β}
    (same : ∀ key, key ∈ first ↔ key ∈ second) : first.keys = second.keys := by
  have perm : first.keys.Perm second.keys := by
    refine (List.perm_ext_iff_of_nodup first.nodup_keys second.nodup_keys).mpr fun key => ?_
    rw [Std.ExtTreeMap.mem_keys, Std.ExtTreeMap.mem_keys]
    exact same key
  refine perm.eq_of_pairwise ?_ first.ordered_keys second.ordered_keys
  intro a b _ _ less greater
  exact absurd greater (Std.OrientedCmp.not_lt_of_lt less)

omit [DecidableEq κ] in
/-- What is read off the entries of two tables is the same if the entries that are read are. -/
theorem filterMap_toList_eq {β : Type} {first second : Table κ α} {read : κ × α → Option β}
    (same : ∀ key value, (read (key, value)).isSome →
      (first[key]? = some value ↔ second[key]? = some value)) :
    first.toList.filterMap read = second.toList.filterMap read := by
  let kept (table : Table κ α) := table.toList.filter fun entry => (read entry).isSome
  have filtered (table : Table κ α) :
      table.toList.filterMap read = (kept table).filterMap read := by
    rw [List.filterMap_filter]
    congr 1
    funext entry
    cases read entry <;> rfl
  have ordered (table : Table κ α) : (kept table).Pairwise fun a b => compare a.1 b.1 = .lt :=
    table.ordered_keys_toList.sublist List.filter_sublist
  have nodup (table : Table κ α) : (kept table).Nodup := by
    refine (ordered table).imp ?_
    rintro entry _ less rfl
    have equal : compare entry.1 entry.1 = .eq := Std.ReflCmp.compare_self
    rw [equal] at less
    cases less
  have perm : (kept first).Perm (kept second) := by
    refine (List.perm_ext_iff_of_nodup (nodup first) (nodup second)).mpr fun ⟨key, value⟩ => ?_
    simp only [kept, List.mem_filter, Std.ExtTreeMap.mem_toList_iff_getElem?_eq_some]
    exact and_congr_left (same key value)
  rw [filtered, filtered]
  congr 1
  refine perm.eq_of_pairwise ?_ (ordered first) (ordered second)
  intro a b _ _ less greater
  exact absurd greater (Std.OrientedCmp.not_lt_of_lt less)

omit [DecidableEq κ] in
theorem size_eq_of_mem_iff {β : Type} {first : Table κ α} {second : Table κ β}
    (same : ∀ key, key ∈ first ↔ key ∈ second) : first.size = second.size := by
  rw [← Std.ExtTreeMap.length_keys, keys_eq_of_mem_iff same, Std.ExtTreeMap.length_keys]

end Table
end TileCensus
