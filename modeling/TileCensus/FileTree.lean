import TileCensus.Disk
import TileCensus.Place
import TileCensus.Table

/-!
# File trees

Directories and files in memory, below one root of everything. A path is followed from that root if
it begins with a slash, and from the current directory if not. There are no links, so two dots
always lead to the directory that a directory is in.

Everything in a tree is in a directory of the tree (`FileTree.inDirectory`), and no change alters
that. So a way of names alone is known to lead from directory to directory once the last of them is
one, and `placeOf` looks no further there if nothing is locked (`placeOf_eq`).

What is locked is there and can be told to be a file or a directory, but a file that is locked
cannot be read, and a directory that is locked can be neither listed nor gone through. No change
locks or unlocks anything. A change of a tree may fail half way; what it has done by then stays
done, so a change always gives a tree, with what it has to say beside it.
-/

namespace TileCensus

/-- What is at a place. -/
inductive Node where
  | directory
  | file (bytes : Bytes)
deriving DecidableEq, Repr

/-- What a table of nodes has at a place. The root of everything is always there. -/
def nodeAt? (nodes : Table Place Node) (place : Place) : Option Node :=
  if place = .root then some .directory else nodes[place]?

/-- Directories and files. -/
structure FileTree where
  nodes : Table Place Node
  /-- Why something can be neither read nor gone through, in the words of the system. -/
  locks : Table Place String
  /-- The directory that paths without a slash in front begin at. -/
  current : Place
  inDirectory : ∀ place ∈ nodes, nodeAt? nodes place.parent = some .directory
  locks_there : ∀ place ∈ locks, nodeAt? nodes place ≠ none
  current_directory : nodeAt? nodes current = some .directory

namespace FileTree

/-! ## Places -/

/-- The tree with nothing in it. -/
def empty : FileTree := ⟨∅, ∅, .root, by simp, by simp, rfl⟩

instance : EmptyCollection FileTree := ⟨empty⟩

/-- What is at a place. -/
def node? (tree : FileTree) (place : Place) : Option Node := nodeAt? tree.nodes place

/-- A place is free for a file or a directory that was not there: it is in a directory, and it is
none itself. -/
def Free (tree : FileTree) (place : Place) : Prop :=
  tree.node? place ≠ some .directory ∧ tree.node? place.parent = some .directory

instance (tree : FileTree) (place : Place) : Decidable (tree.Free place) :=
  inferInstanceAs (Decidable (_ ∧ _))

theorem nodeAt?_insert {nodes : Table Place Node} {place : Place} (h : place ≠ .root)
    (node : Node) (other : Place) :
    nodeAt? (nodes.insert place node) other =
      if place = other then some node else nodeAt? nodes other := by
  simp only [nodeAt?, Table.getElem?_insert]
  split
  next root =>
    subst root
    simp [h]
  next => rfl

theorem Free.ne_root {tree : FileTree} {place : Place} (free : tree.Free place) :
    place ≠ .root := by
  rintro rfl
  exact free.1 rfl

/-- Puts a node at a free place. -/
def put (tree : FileTree) (place : Place) (node : Node) (free : tree.Free place) : FileTree where
  nodes := tree.nodes.insert place node
  locks := tree.locks
  current := tree.current
  inDirectory := by
    have inside := free.ne_root
    intro other mem
    rw [nodeAt?_insert inside]
    by_cases same : place = other
    · subst same
      split
      next loop => exact absurd loop.symm (Place.parent_ne inside)
      next => exact free.2
    · have mem : other ∈ tree.nodes := by
        simpa [Std.ExtTreeMap.mem_insert, same] using mem
      have parent := tree.inDirectory other mem
      split
      next overwritten =>
        subst overwritten
        exact absurd parent free.1
      next => exact parent
  locks_there := by
    intro other mem
    rw [nodeAt?_insert free.ne_root]
    split
    next => exact Option.some_ne_none node
    next => exact tree.locks_there other mem
  current_directory := by
    rw [nodeAt?_insert free.ne_root, if_neg ?_]
    · exact tree.current_directory
    · rintro rfl
      exact free.1 tree.current_directory

theorem node?_put (tree : FileTree) (place : Place) (node : Node) (free : tree.Free place)
    (other : Place) :
    (tree.put place node free).node? other =
      if place = other then some node else tree.node? other :=
  nodeAt?_insert free.ne_root node other

/-- Goes to a directory. -/
def enter (tree : FileTree) (place : Place) (directory : tree.node? place = some .directory) :
    FileTree :=
  { tree with current := place, current_directory := directory }

/-- Locks what is at a place. -/
def lock (tree : FileTree) (place : Place) (reason : String) (there : tree.node? place ≠ none) :
    FileTree :=
  { tree with
    locks := tree.locks.insert place reason
    locks_there := by
      intro other mem
      rcases Std.ExtTreeMap.mem_insert.mp mem with same | mem
      · exact Std.LawfulEqCmp.eq_of_compare same ▸ there
      · exact tree.locks_there other mem }

/-! ## Paths -/

/-- Follows one part of a path. A part can only be followed from a directory that is not locked. -/
def follow (tree : FileTree) (place : Place) (part : String) : Except FileError Place :=
  match tree.node? place with
  | none => .error .missing
  | some (.file _) => .error .notDirectory
  | some .directory =>
    match tree.locks[place]? with
    | some reason => .error (.other reason)
    | none => .ok (place.next part)

/-- Whether a part of a path is the name of something, and not a dot or two. -/
def isName (part : String) : Bool := part ≠ "." && part ≠ ".."

/-- The place that parts lead to from another one. There may be nothing at it. -/
def placeOf (tree : FileTree) (start : Place) (parts : List String) : Except FileError Place :=
  if tree.locks.isEmpty && parts.all isName &&
      tree.node? (start.below parts.dropLast) = some .directory then
    .ok (start.below parts)
  else parts.foldlM tree.follow start

theorem node?_parent {tree : FileTree} {place : Place} (inside : place ≠ .root) {node : Node}
    (h : tree.node? place = some node) : tree.node? place.parent = some .directory := by
  rw [node?, nodeAt?, if_neg inside] at h
  exact tree.inDirectory place (by simp [Std.ExtTreeMap.mem_iff_isSome_getElem?, h])

theorem node?_of_below {tree : FileTree} {place : Place} {names : List String}
    (h : tree.node? (place.below names) = some .directory) :
    tree.node? place = some .directory := by
  induction names generalizing place with
  | nil => simpa using h
  | cons name names ih =>
    rw [Place.below_cons] at h
    simpa using node?_parent (place.child_ne_root name) (ih h)

theorem foldlM_follow {tree : FileTree} {place : Place} {names : List String}
    (unlocked : tree.locks = ∅) (named : ∀ name ∈ names, isName name)
    (h : tree.node? (place.below names.dropLast) = some .directory) :
    names.foldlM tree.follow place = .ok (place.below names) := by
  induction names generalizing place with
  | nil => simp [pure, Except.pure]
  | cons name names ih =>
    have at_place := node?_of_below h
    have : isName name := named name (by simp)
    have step : tree.follow place name = .ok (place.child name) := by
      simp_all [follow, isName, Place.next]
    rw [List.foldlM_cons, step, Place.below_cons]
    cases names with
    | nil => simp [bind, Except.bind, pure, Except.pure]
    | cons next names =>
      rw [List.dropLast_cons_of_ne_nil (by simp), Place.below_cons] at h
      exact ih (fun other mem => named other (by simp [mem])) h

/-- Parts lead to where one comes by following them one after the other. -/
theorem placeOf_eq (tree : FileTree) (start : Place) (parts : List String) :
    tree.placeOf start parts = parts.foldlM tree.follow start := by
  simp only [placeOf, Bool.and_eq_true]
  split
  next short =>
    obtain ⟨⟨unlocked, named⟩, directory⟩ := short
    rw [foldlM_follow (by simpa using unlocked) (List.all_eq_true.mp named)
      (of_decide_eq_true directory)]
  next => rfl

/-- The directory that paths begin at: with a slash in front the root of everything. -/
def start (tree : FileTree) (absolute : Bool) : Place := if absolute then .root else tree.current

/-- The place that a path leads to. An empty path leads nowhere. -/
def locate (tree : FileTree) (path : String) : Except FileError Place :=
  if path.isEmpty then .error .missing
  else tree.placeOf (tree.start (Path.isAbsolute path)) (Path.way path)

/-! ## Reading -/

/-- The bytes of a file. -/
def read (tree : FileTree) (path : String) : Except FileError Bytes := do
  let place ← tree.locate path
  match tree.node? place, tree.locks[place]? with
  | none, _ => throw .missing
  | some _, some reason => throw (.other reason)
  | some .directory, none => throw .isDirectory
  | some (.file bytes), none => return bytes

/-- Whether a path leads to a file. -/
def isFile (tree : FileTree) (path : String) : Bool :=
  match tree.locate path with
  | .error _ => false
  | .ok place =>
    match tree.node? place with
    | some (.file _) => true
    | some .directory | none => false

/-- What is below a place, in the order in which directories are gone through: that of the names. -/
def below (tree : FileTree) (place : Place) : List (Place × Node) :=
  let entries := tree.nodes.toList.filter fun (other, _) =>
    place.depth < other.depth && place.names.isPrefixOf other.names
  entries.mergeSort fun first second => (compare first.1.names second.1.names).isLE

/-- The path of what is below a place, where a path leads to that place. -/
def pathBelow (path : String) (place other : Place) : String :=
  (other.names.drop place.depth).foldl Path.join path

/-- What a walk through the place of a path lists where it comes by: the files. -/
def listing? (path : String) (place : Place) : Place × Node → Option (String × Bytes)
  | (other, .file bytes) => some (pathBelow path place other, bytes)
  | (_, .directory) => none

/-- How a walk ends at something that is locked. -/
def refusal (path : String) (place : Place) (reason : String) : Place × Node → WalkError
  | (other, .file _) => .reading (pathBelow path place other) (.other reason)
  | (other, .directory) => .listing (pathBelow path place other) (.other reason)

/-- What a walk finds where it comes by. -/
def visit (tree : FileTree) (path : String) (place : Place) (entry : Place × Node) :
    Except WalkError (Option (String × Bytes)) :=
  match tree.locks[entry.1]? with
  | some reason => .error (refusal path place reason entry)
  | none => .ok (listing? path place entry)

/-- The paths and bytes of the files at or below a path. -/
def files (tree : FileTree) (path : String) : Except WalkError (List (String × Bytes)) := do
  let place ← (tree.locate path).mapError (.listing path)
  match tree.node? place with
  | none => throw (.listing path .missing)
  | some node =>
    let found ← ((place, node) :: tree.below place).mapM (tree.visit path place)
    return found.filterMap id

/-- A tree as something to be read. -/
def disk (tree : FileTree) : Disk Id := ⟨tree.read, tree.isFile, tree.files⟩

/-! ## Changing -/

/-- What a change gives: the tree after it, and why it failed if it did. -/
abbrev Change := Except FileError Unit × FileTree

/-- Puts a node at a place if it is free. -/
def putIfFree (tree : FileTree) (place : Place) (node : Node) : Change :=
  if free : tree.Free place then (.ok (), tree.put place node free) else (.error .missing, tree)

/-- Makes one directory, where there is nothing yet. -/
def makeDirectory (tree : FileTree) (start : Place) (parts : List String) : Change :=
  match tree.placeOf start parts with
  | .error reason => (.error reason, tree)
  | .ok place =>
    if (tree.node? place).isSome then (.error .occupied, tree) else tree.putIfFree place .directory

/-- Whether parts lead to a directory. -/
def isDirectory (tree : FileTree) (start : Place) (parts : List String) : Bool :=
  match tree.placeOf start parts with
  | .ok place => tree.node? place = some .directory
  | .error _ => false

/-- The parts that lead to what a path is in. A dot in a path is passed over, unless it is what a
path without a slash in front begins with. -/
def parentParts (absolute : Bool) (parts : List String) : List String :=
  match absolute, parts with
  | false, first :: others => (first :: others.filter (· ≠ ".")).dropLast
  | _, parts => (parts.filter (· ≠ ".")).dropLast

theorem length_parentParts {absolute : Bool} {first : String} {others : List String} :
    (parentParts absolute (first :: others)).length < (first :: others).length := by
  have all := List.length_filter_le (· ≠ ".") (first :: others)
  have later := List.length_filter_le (· ≠ ".") others
  rw [List.length_cons] at all
  cases absolute with
  | false =>
    simp only [parentParts, List.length_dropLast, List.length_cons]
    omega
  | true =>
    simp only [parentParts, List.length_dropLast, List.length_cons]
    omega

/-- Makes a directory, and first those it is to be in, as far as they are missing. Without a part,
the directory is the one that paths begin at, and nothing is made. -/
def makeDirectories (tree : FileTree) (absolute : Bool) (parts : List String) : Change :=
  match parts with
  | [] => (.ok (), tree)
  | first :: others =>
    match tree.makeDirectory (tree.start absolute) (first :: others) with
    | (.ok (), tree) => (.ok (), tree)
    | (.error .missing, _) =>
      match tree.makeDirectories absolute (parentParts absolute (first :: others)) with
      | (.error reason, tree) => (.error reason, tree)
      | (.ok (), tree) =>
        match tree.makeDirectory (tree.start absolute) (first :: others) with
        | (.ok (), tree) => (.ok (), tree)
        | (.error reason, _) =>
          if tree.isDirectory (tree.start absolute) (first :: others) then (.ok (), tree)
          else (.error reason, tree)
    | (.error reason, _) =>
      if tree.isDirectory (tree.start absolute) (first :: others) then (.ok (), tree)
      else (.error reason, tree)
termination_by parts.length
decreasing_by exact length_parentParts

/-- Makes the directory of a path with all it is to be in. -/
def makePath (tree : FileTree) (path : String) : Change :=
  tree.makeDirectories (Path.isAbsolute path) (Path.parts path)

/-- Writes a file, in place of an earlier one. A lock does not keep a file from being written. -/
def write (tree : FileTree) (path : String) (bytes : Bytes) : Change :=
  match tree.locate path with
  | .error reason => (.error reason, tree)
  | .ok place =>
    if tree.node? place = some .directory then (.error .isDirectory, tree)
    else tree.putIfFree place (.file bytes)

end FileTree
end TileCensus
