import Mathlib
import TileCensus.Proofs.TreeGrowth
import TileCensus.Run

/-!
# Writing twice

A run that ends well has made the output directory and has written its files one after the other,
without a failure (`Applies`). The same changes can be made to the tree that this has led to. The
directories are there, each file is written where it was written before, and the later files are
written over the earlier ones once more, so the tree stays as it is (`Applies.again`).
-/

namespace TileCensus

open FileTree

/-! ## Entries put twice -/

namespace Table

variable {κ α : Type} [Ord κ] [Std.TransOrd κ] [Std.LawfulEqOrd κ] [DecidableEq κ]

/-- A table with entries put into it one after the other. -/
def putAll (table : Table κ α) (entries : List (κ × α)) : Table κ α :=
  entries.foldl (fun table entry => table.insert entry.1 entry.2) table

theorem getElem?_putAll_of_not_mem {table : Table κ α} {entries : List (κ × α)} {key : κ}
    (absent : ∀ entry ∈ entries, entry.1 ≠ key) : (putAll table entries)[key]? = table[key]? := by
  induction entries generalizing table with
  | nil => rfl
  | cons entry entries ih =>
    obtain ⟨other, absent⟩ := List.forall_mem_cons.mp absent
    rw [putAll, List.foldl_cons, ← putAll, ih absent, getElem?_insert, if_neg other]

theorem getElem?_putAll_of_mem {table : Table κ α} {entries : List (κ × α)}
    (distinct : (entries.map (·.1)).Nodup) {entry : κ × α} (mem : entry ∈ entries) :
    (putAll table entries)[entry.1]? = some entry.2 := by
  induction entries generalizing table with
  | nil => cases mem
  | cons first entries ih =>
    obtain ⟨apart, distinct⟩ := List.nodup_cons.mp distinct
    rw [putAll, List.foldl_cons, ← putAll]
    rcases List.mem_cons.mp mem with rfl | mem
    · rw [getElem?_putAll_of_not_mem, getElem?_insert, if_pos rfl]
      intro other listed same
      exact apart (List.mem_map.mpr ⟨other, listed, same⟩)
    · exact ih distinct mem

/-- What entries are put over does not matter. -/
theorem putAll_congr {first second : Table κ α} {entries : List (κ × α)}
    (same : ∀ key, (∀ entry ∈ entries, entry.1 ≠ key) → first[key]? = second[key]?) :
    putAll first entries = putAll second entries := by
  induction entries generalizing first second with
  | nil => exact Std.ExtTreeMap.ext_getElem? fun key => same key (by simp)
  | cons entry entries ih =>
    refine ih fun key absent => ?_
    rw [getElem?_insert, getElem?_insert]
    split
    next => rfl
    next other => exact same key (List.forall_mem_cons.mpr ⟨other, absent⟩)

theorem putAll_twice (table : Table κ α) (entries : List (κ × α)) :
    putAll (putAll table entries) entries = putAll table entries :=
  putAll_congr fun _ absent => getElem?_putAll_of_not_mem absent

end Table

/-! ## Changes without a failure -/

/-- Changes are made to a tree one after the other, and none fails. -/
inductive Applies : FileTree → List Effect → FileTree → Prop where
  | nil (tree : FileTree) : Applies tree [] tree
  | cons {tree next after : FileTree} {effect : Effect} {effects : List Effect}
      (first : FileTree.apply effect tree = (.ok (), next)) (rest : Applies next effects after) :
      Applies tree (effect :: effects) after

theorem takeSteps_eq_ok_iff {steps : List Step} {told log : Log} {tree after : FileTree} :
    takeSteps FileTree.apply told steps tree = ((.ok (), log), after) ↔
      Applies tree (steps.map (·.effect)) after ∧ log = told ++ steps.flatMap (·.log) := by
  induction steps generalizing told tree with
  | nil =>
    constructor
    · intro taken
      cases taken
      exact ⟨.nil _, by simp⟩
    · rintro ⟨applies, rfl⟩
      cases applies
      simp [takeSteps]
      rfl
  | cons step steps ih =>
    cases applied : FileTree.apply step.effect tree with
    | mk result next =>
      have taken : takeSteps FileTree.apply told (step :: steps) tree =
          match result with
          | .ok () => takeSteps FileTree.apply (told ++ step.log) steps next
          | .error reason => ((.error (step.failure reason), told), next) := by
        simp only [takeSteps, bind, StateT.bind, applied]
        cases result <;> rfl
      rw [taken]
      cases result with
      | error reason =>
        constructor
        · intro failed
          cases failed
        · rintro ⟨applies, -⟩
          cases applies with
          | cons first rest =>
            rw [applied] at first
            cases first
      | ok done =>
        rw [ih, List.map_cons, List.flatMap_cons, List.append_assoc]
        refine and_congr_left fun _ => ⟨fun rest => .cons applied rest, ?_⟩
        intro applies
        cases applies with
        | cons first rest =>
          rw [applied] at first
          cases first
          exact rest

theorem grows_apply {written : Place → Prop} {effect : Effect} {tree next : FileTree}
    (applied : FileTree.apply effect tree = (.ok (), next))
    (places : ∀ path bytes, effect = .write path bytes →
      ∀ place, tree.locate path = .ok place → written place) : Grows written tree next := by
  cases effect with
  | makePath path => exact grows_makePath applied
  | write path bytes =>
    obtain ⟨place, free, located, rfl⟩ := write_eq_ok_iff.mp applied
    exact grows_put free (.overwritten (places path bytes rfl place located) free.1 bytes)

/-- Changes make a tree grow; what is written is where the paths lead in the end. -/
theorem Applies.grows {written : Place → Prop} {effects : List Effect} {tree after : FileTree}
    (applies : Applies tree effects after)
    (places : ∀ path bytes, .write path bytes ∈ effects →
      ∀ place, after.locate path = .ok place → written place) : Grows written tree after := by
  induction applies with
  | nil tree => exact .refl tree
  | @cons tree next after effect effects first rest ih =>
    have later := ih fun path bytes mem => places path bytes (List.mem_cons_of_mem _ mem)
    have now : Grows (fun _ => True) tree next := grows_apply first fun _ _ _ _ _ => trivial
    refine (grows_apply first ?_).trans later
    rintro path bytes rfl place located
    exact places path bytes List.mem_cons_self place
      (locate_mono later.keeps (locate_mono now.keeps located))

/-! ## Files without a failure -/

/-- A file that is written. -/
def writeEffect (file : String × Bytes) : Effect := .write file.1 file.2

/-- Paths lead the same ways in two trees. -/
def SameWays (first second : FileTree) : Prop := Keeps first second ∧ Keeps second first

theorem SameWays.refl (tree : FileTree) : SameWays tree tree := ⟨.refl tree, .refl tree⟩

theorem SameWays.symm {first second : FileTree} (same : SameWays first second) :
    SameWays second first := ⟨same.2, same.1⟩

theorem SameWays.trans {first second third : FileTree} (same : SameWays first second)
    (also : SameWays second third) : SameWays first third :=
  ⟨same.1.trans also.1, also.2.trans same.2⟩

/-- A file can be written, at a place and with its content. -/
structure Placed (tree : FileTree) (file : String × Bytes) (entry : Place × Node) : Prop where
  located : tree.locate file.1 = .ok entry.1
  free : tree.Free entry.1
  content : entry.2 = .file file.2

variable {tree after : FileTree}

theorem Placed.congr {file : String × Bytes} {entry : Place × Node}
    (same : SameWays tree after) (placed : Placed tree file entry) :
    Placed after file entry where
  located := locate_mono same.1 placed.located
  free := ⟨mt (same.2.directories _) placed.free.1, same.1.directories _ placed.free.2⟩
  content := placed.content

theorem sameWays_put {place : Place} (free : tree.Free place) (bytes : Bytes) :
    SameWays tree (tree.put place (.file bytes) free) := by
  have same (other : Place) : tree.node? other = some .directory ↔
      (tree.put place (.file bytes) free).node? other = some .directory := by
    rw [node?_put]
    split
    next same =>
      subst same
      exact iff_of_false free.1 nofun
    next => exact Iff.rfl
  exact ⟨⟨fun other => (same other).mp, rfl, rfl⟩, ⟨fun other => (same other).mpr, rfl, rfl⟩⟩

theorem Applies.exists_placed {files : List (String × Bytes)}
    (applies : Applies tree (files.map writeEffect) after) :
    SameWays tree after ∧ ∃ entries, List.Forall₂ (Placed tree) files entries ∧
      after.nodes = Table.putAll tree.nodes entries := by
  induction files generalizing tree with
  | nil =>
    cases applies
    exact ⟨.refl _, [], .nil, rfl⟩
  | cons file files ih =>
    cases applies with
    | cons first rest =>
      obtain ⟨place, free, located, rfl⟩ := write_eq_ok_iff.mp first
      have same := sameWays_put free file.2
      obtain ⟨later, entries, placed, nodes⟩ := ih rest
      refine ⟨same.trans later, (place, .file file.2) :: entries, ?_, nodes⟩
      exact .cons ⟨located, free, rfl⟩ (placed.imp fun _ _ placed => placed.congr same.symm)

theorem exists_applies_of_placed {files : List (String × Bytes)} {entries : List (Place × Node)}
    (placed : List.Forall₂ (Placed tree) files entries) :
    ∃ after, Applies tree (files.map writeEffect) after ∧
      after.nodes = Table.putAll tree.nodes entries := by
  induction files generalizing tree entries with
  | nil =>
    cases placed
    exact ⟨tree, .nil tree, rfl⟩
  | cons file files ih =>
    cases placed with
    | @cons _ entry _ entries head tail =>
      obtain ⟨place, node⟩ := entry
      obtain ⟨located, free, rfl⟩ := head
      have same := sameWays_put free file.2
      obtain ⟨after, rest, nodes⟩ := ih (tail.imp fun _ _ placed => placed.congr same)
      exact ⟨after, .cons (write_eq_ok_iff.mpr ⟨place, free, located, rfl⟩) rest, nodes⟩

/-- Files that were written can be written again, and that changes nothing. -/
theorem Applies.write_again {files : List (String × Bytes)}
    (applies : Applies tree (files.map writeEffect) after) :
    Applies after (files.map writeEffect) after := by
  obtain ⟨same, entries, placed, nodes⟩ := applies.exists_placed
  obtain ⟨again, applies, nodes'⟩ :=
    exists_applies_of_placed (placed.imp fun _ _ placed => placed.congr same)
  obtain ⟨⟨keeps, -⟩, -⟩ := applies.exists_placed
  have unchanged : again.nodes = after.nodes := by rw [nodes', nodes, Table.putAll_twice]
  rwa [FileTree.ext unchanged keeps.locks keeps.current] at applies

/-- A directory that was made and files that were written after that can be made and written again,
and that changes nothing. -/
theorem Applies.again {path : String} {files : List (String × Bytes)}
    (applies : Applies tree (.makePath path :: files.map writeEffect) after) :
    Applies after (.makePath path :: files.map writeEffect) after := by
  cases applies with
  | @cons _ next _ _ _ first rest =>
    obtain ⟨same, -⟩ := rest.exists_placed
    exact .cons (makePath_again first same.1) rest.write_again

end TileCensus
