import Mathlib
import TileCensus.Proofs.TreeGrowth

/-!
# Walks through a tree

A walk comes to its end exactly if there is something to walk through and nothing of it is locked;
it has then found all files there, in the order of their names (`files_eq_ok_iff`). So in a grown
tree it finds the same, if nothing has been written where it comes by (`Grows.files`): directories
that were made meanwhile are gone through as well, but are not locked and hold no files.
-/

namespace TileCensus
namespace FileTree

variable {tree before after : FileTree} {place : Place}

/-! ## What a walk finds -/

/-- Nothing at or below a place is locked. -/
def Clear (tree : FileTree) (place : Place) : Prop :=
  ∀ other : Place, place.names <+: other.names → tree.locks[other]? = none

theorem mem_below_iff {other : Place} {node : Node} :
    (other, node) ∈ tree.below place ↔
      tree.node? other = some node ∧ place.names <+: other.names ∧ other ≠ place := by
  rw [below, List.mem_mergeSort, List.mem_filter, Std.ExtTreeMap.mem_toList_iff_getElem?_eq_some,
    Bool.and_eq_true, decide_eq_true_iff, List.isPrefixOf_iff_prefix]
  constructor
  · intro mem
    obtain ⟨found, deeper, within⟩ := mem
    have inside : other ≠ .root := by
      rintro rfl
      exact Nat.not_lt_zero _ deeper
    refine ⟨by rwa [node?, nodeAt?, if_neg inside], within, ?_⟩
    rintro rfl
    exact Nat.lt_irrefl _ deeper
  · intro found
    obtain ⟨found, within, other_ne⟩ := found
    have deeper := Place.depth_lt_of_prefix within other_ne
    have inside : other ≠ .root := by
      rintro rfl
      exact Nat.not_lt_zero _ deeper
    rw [node?, nodeAt?, if_neg inside] at found
    exact ⟨found, deeper, within⟩

/-- How a walk ends at the first entry that is locked, if there is one. -/
def refusal? (tree : FileTree) (path : String) (place : Place) (entries : List (Place × Node)) :
    Option WalkError :=
  entries.findSome? fun entry =>
    tree.locks[entry.1]?.map fun reason => refusal path place reason entry

theorem refusal?_eq_none_iff {path : String} {entries : List (Place × Node)} :
    tree.refusal? path place entries = none ↔
      ∀ entry ∈ entries, tree.locks[entry.1]? = none := by
  simp only [refusal?, List.findSome?_eq_none_iff, Option.map_eq_none_iff]

/-- A walk ends at the first entry that is locked. If there is none, it lists all files. -/
theorem mapM_visit (path : String) (entries : List (Place × Node)) :
    entries.mapM (tree.visit path place) =
      match tree.refusal? path place entries with
      | some failure => .error failure
      | none => .ok (entries.map (listing? path place)) := by
  induction entries with
  | nil => rfl
  | cons entry entries ih =>
    rw [List.mapM_cons, visit, refusal?, List.findSome?_cons, ← refusal?, ih]
    cases tree.locks[entry.1]? with
    | some reason => rfl
    | none =>
      dsimp only [Option.map_none]
      cases tree.refusal? path place entries <;> rfl

theorem clear_iff (node : Node) :
    tree.Clear place ↔
      ∀ entry ∈ (place, node) :: tree.below place, tree.locks[entry.1]? = none := by
  constructor
  · intro clear entry mem
    rcases List.mem_cons.mp mem with rfl | mem
    · exact clear place List.prefix_rfl
    · obtain ⟨-, within, -⟩ := mem_below_iff.mp mem
      exact clear entry.1 within
  · intro unlocked other within
    cases locked : tree.locks[other]? with
    | none => rfl
    | some reason =>
      have there : tree.node? other ≠ none := fun absent => by
        rw [locks_of_absent absent] at locked
        cases locked
      obtain ⟨known, there⟩ := Option.ne_none_iff_exists'.mp there
      have mem : ∃ node', (other, node') ∈ (place, node) :: tree.below place := by
        by_cases same : other = place
        · exact ⟨node, same ▸ List.mem_cons_self⟩
        · exact ⟨known, List.mem_cons_of_mem _ (mem_below_iff.mpr ⟨there, within, same⟩)⟩
      obtain ⟨node', mem⟩ := mem
      rw [← locked, unlocked _ mem]

/-- A walk comes to its end if nothing that it comes by is locked. Then it has found the files. -/
theorem files_eq_ok_iff {path : String} {files : List (String × Bytes)} :
    tree.files path = .ok files ↔
      ∃ place node, tree.locate path = .ok place ∧ tree.node? place = some node ∧
        tree.Clear place ∧
        files = ((place, node) :: tree.below place).filterMap (listing? path place) := by
  unfold FileTree.files
  cases tree.locate path with
  | error reason => simp [Except.mapError, bind, Except.bind]
  | ok place =>
    simp only [Except.mapError, bind, Except.bind, Except.ok.injEq, exists_and_left,
      exists_eq_left']
    cases found : tree.node? place with
    | none => simp [throw, throwThe, MonadExceptOf.throw]
    | some node =>
      simp only [Option.some.injEq, exists_eq_left', clear_iff node]
      rw [mapM_visit, ← refusal?_eq_none_iff]
      cases tree.refusal? path place ((place, node) :: tree.below place) with
      | some failure => exact iff_of_false nofun nofun
      | none =>
        simp only [pure, Except.pure, Except.ok.injEq, List.filterMap_map, Function.id_comp,
          true_and]
        exact eq_comm

/-- A path leads to something, and nothing at or below it is locked. -/
def Walkable (tree : FileTree) (path : String) : Prop :=
  ∃ place, tree.locate path = .ok place ∧ tree.node? place ≠ none ∧ tree.Clear place

theorem exists_files_iff {path : String} :
    (∃ files, tree.files path = .ok files) ↔ tree.Walkable path := by
  constructor
  · intro walked
    obtain ⟨files, walked⟩ := walked
    obtain ⟨place, node, located, found, clear, -⟩ := files_eq_ok_iff.mp walked
    exact ⟨place, located, found ▸ Option.some_ne_none node, clear⟩
  · intro walkable
    obtain ⟨place, located, there, clear⟩ := walkable
    obtain ⟨node, found⟩ := Option.ne_none_iff_exists'.mp there
    exact ⟨_, files_eq_ok_iff.mpr ⟨place, node, located, found, clear, rfl⟩⟩

/-! ## Walks through a grown tree -/

/-- Whether an entry is a file. -/
def isFileEntry (entry : Place × Node) : Bool := entry.2 ≠ .directory

theorem filterMap_filter_listing? {path : String} (entries : List (Place × Node)) :
    (entries.filter isFileEntry).filterMap (listing? path place) =
      entries.filterMap (listing? path place) := by
  rw [List.filterMap_filter]
  refine List.filterMap_congr fun entry _ => ?_
  obtain ⟨other, node⟩ := entry
  cases node with
  | directory => rfl
  | file bytes => rfl

theorem nodup_below (tree : FileTree) (place : Place) : (tree.below place).Nodup := by
  have listed : tree.nodes.toList.Nodup := by
    refine List.Nodup.of_map Prod.fst ?_
    rw [Std.ExtTreeMap.map_fst_toList_eq_keys]
    exact Table.nodup_keys tree.nodes
  exact (List.mergeSort_perm _ _).nodup_iff.mpr (listed.filter _)

/-- What is below a place is in the order of the names. -/
theorem pairwise_below (tree : FileTree) (place : Place) :
    (tree.below place).Pairwise fun first second =>
      (compare first.1.names second.1.names).isLE = true := by
  refine List.pairwise_mergeSort ?_ ?_ _
  · intro first second third
    exact Std.TransCmp.isLE_trans
  · intro first second
    rw [Bool.or_eq_true, or_iff_not_imp_left]
    intro greater
    rw [Std.OrientedCmp.lt_of_not_isLE greater]
    rfl

variable {written : Place → Prop}

/-- The files below a place are the same if none of them has been written. -/
theorem Grows.filter_below (grows : Grows written before after)
    (unwritten : ∀ other, written other → ¬place.names <+: other.names) :
    (after.below place).filter isFileEntry = (before.below place).filter isFileEntry := by
  have perm : ((after.below place).filter isFileEntry).Perm
      ((before.below place).filter isFileEntry) := by
    refine (List.perm_ext_iff_of_nodup ((nodup_below after place).filter _)
      ((nodup_below before place).filter _)).mpr fun entry => ?_
    obtain ⟨other, node⟩ := entry
    cases node with
    | directory => simp [isFileEntry]
    | file bytes =>
      rw [List.mem_filter, List.mem_filter, mem_below_iff, mem_below_iff]
      refine and_congr_left fun _ => and_congr_left fun within => ?_
      exact ((grows.becomes other).file_iff fun isWritten =>
        unwritten other isWritten within.1).symm
  refine perm.eq_of_pairwise ?_ ((pairwise_below after place).filter _)
    ((pairwise_below before place).filter _)
  intro first second mem mem' below above
  obtain ⟨here, -⟩ := mem_below_iff.mp (List.mem_filter.mp mem).1
  obtain ⟨there, -⟩ := mem_below_iff.mp (List.mem_filter.mp (perm.mem_iff.mpr mem')).1
  have same : first.1 = second.1 :=
    Place.ext_names (Std.LawfulEqCmp.eq_of_compare (Std.OrientedCmp.isLE_antisymm below above))
  rw [same, there] at here
  exact Prod.ext same (Option.some.inj here).symm

/-- The files at or below a path are the same if none of them has been written. -/
theorem Grows.files {path : String} {files : List (String × Bytes)}
    (grows : Grows written before after)
    (unwritten : ∀ place, after.locate path = .ok place →
      ∀ other, written other → ¬place.names <+: other.names)
    (was : before.files path = .ok files) : after.files path = .ok files := by
  obtain ⟨place, node, located, found, clear, rfl⟩ := files_eq_ok_iff.mp was
  have still := locate_mono grows.keeps located
  have below := unwritten place still
  have same : after.node? place = some node := by
    cases node with
    | directory => exact grows.keeps.directories place found
    | file bytes =>
      have own : ¬written place := fun isWritten => below place isWritten List.prefix_rfl
      exact ((grows.becomes place).file_iff own).mp found
  refine files_eq_ok_iff.mpr ⟨place, node, still, same, ?_, ?_⟩
  · intro other within
    rw [grows.locks]
    exact clear other within
  · rw [List.filterMap_cons, List.filterMap_cons, ← filterMap_filter_listing? (after.below place),
      grows.filter_below below, filterMap_filter_listing?]

end FileTree
end TileCensus
