import TileCensus.FileTree

/-!
# Trees that grow

Where a path leads depends on the directory it begins at, on the directories on its way and on what
is locked, and on nothing else. So it leads to the same place in every tree that keeps these
(`Leads.mono`), and back as well unless it goes by way of a directory that was not there
(`Leads.of_through`).

Making directories and writing files takes no directory away and puts none where a file was, and
locks nothing. That is all that `Grows` says of two trees, with the places that may have been
written. It is enough to know which paths lead to which files in the later tree: those that did,
except for the files at these places (`Grows.hasFile_iff`).
-/

namespace TileCensus
namespace FileTree

variable {tree before middle after : FileTree} {place next last : Place}

theorem ext (nodes : before.nodes = after.nodes) (locks : before.locks = after.locks)
    (current : before.current = after.current) : before = after := by
  obtain ⟨_, _, _, _⟩ := before
  obtain ⟨_, _, _, _⟩ := after
  cases nodes
  cases locks
  cases current
  rfl

/-- What is not there is not locked. -/
theorem locks_of_absent (absent : tree.node? place = none) : tree.locks[place]? = none := by
  cases locked : tree.locks[place]? with
  | none => rfl
  | some reason =>
    exact absurd absent
      (tree.locks_there place (Table.mem_iff_exists_getElem?.mpr ⟨reason, locked⟩))

/-! ## Ways -/

/-- A directory that can be listed and gone through. -/
def Opens (tree : FileTree) (place : Place) : Prop :=
  tree.node? place = some .directory ∧ tree.locks[place]? = none

/-- Parts lead from place to place, each of them a directory that can be gone through but the last,
where there may be nothing. -/
inductive Leads (tree : FileTree) : Place → List String → Place → Prop where
  | here (place : Place) : Leads tree place [] place
  | step {place last : Place} {part : String} {parts : List String} (opens : tree.Opens place)
      (rest : Leads tree (place.next part) parts last) : Leads tree place (part :: parts) last

theorem follow_eq_ok_iff {part : String} :
    tree.follow place part = .ok next ↔ tree.Opens place ∧ place.next part = next := by
  unfold follow Opens
  split
  next missing => simp [missing]
  next file => simp [file]
  next directory =>
    split
    next reason locked => simp [locked]
    next unlocked => simp [directory, unlocked]

theorem foldlM_follow_eq_ok_iff {parts : List String} :
    parts.foldlM tree.follow place = .ok last ↔ tree.Leads place parts last := by
  induction parts generalizing place with
  | nil =>
    constructor
    · intro same
      cases same
      exact .here _
    · intro leads
      cases leads with
      | here => rfl
  | cons part parts ih =>
    rw [List.foldlM_cons]
    constructor
    · intro leads
      cases moved : tree.follow place part with
      | error reason =>
        rw [moved] at leads
        cases leads
      | ok next =>
        rw [moved] at leads
        obtain ⟨opens, rfl⟩ := follow_eq_ok_iff.mp moved
        exact .step opens (ih.mp leads)
    · intro leads
      cases leads with
      | step opens rest =>
        rw [follow_eq_ok_iff.mpr ⟨opens, rfl⟩]
        exact ih.mpr rest

theorem placeOf_eq_ok_iff {parts : List String} :
    tree.placeOf place parts = .ok last ↔ tree.Leads place parts last := by
  rw [placeOf_eq, foldlM_follow_eq_ok_iff]

/-- The directory that a path begins at. -/
abbrev origin (tree : FileTree) (path : String) : Place := tree.start (Path.isAbsolute path)

theorem locate_eq_ok_iff {path : String} :
    tree.locate path = .ok place ↔
      path ≠ "" ∧ tree.Leads (tree.origin path) (Path.way path) place := by
  unfold locate
  split
  next blank => simp [String.isEmpty_iff.mp blank]
  next nonblank =>
    rw [placeOf_eq_ok_iff, and_iff_right (mt String.isEmpty_iff.mpr nonblank)]

theorem isDirectory_iff {parts : List String} :
    tree.isDirectory place parts = true ↔
      ∃ last, tree.Leads place parts last ∧ tree.node? last = some .directory := by
  simp only [← placeOf_eq_ok_iff]
  unfold isDirectory
  cases tree.placeOf place parts with
  | error reason => simp
  | ok last => simp

theorem Leads.unique {parts : List String} {other : Place} (leads : tree.Leads place parts last)
    (also : tree.Leads place parts other) : last = other := by
  have first := foldlM_follow_eq_ok_iff.mpr leads
  rw [foldlM_follow_eq_ok_iff.mpr also] at first
  cases first
  rfl

theorem Leads.append {between : Place} {front back : List String}
    (first : tree.Leads place front between) (second : tree.Leads between back last) :
    tree.Leads place (front ++ back) last := by
  induction first with
  | here => exact second
  | step opens rest ih => exact .step opens (ih second)

theorem Leads.opens_of_append {front back : List String}
    (leads : tree.Leads place (front ++ back) last) (goesOn : back ≠ []) :
    ∃ between, tree.Leads place front between ∧ tree.Opens between := by
  induction front generalizing place with
  | nil =>
    cases leads with
    | here => exact absurd rfl goesOn
    | step opens => exact ⟨place, .here place, opens⟩
  | cons part front ih =>
    cases leads with
    | step opens rest =>
      obtain ⟨between, reached, there⟩ := ih rest
      exact ⟨between, .step opens reached, there⟩

/-- A way goes through a place when it goes on from there. -/
def PassesThrough (tree : FileTree) (path : String) (place : Place) : Prop :=
  ∃ front back, back ≠ [] ∧ Path.way path = front ++ back ∧
    tree.Leads (tree.origin path) front place

/-! ## Trees that keep their directories -/

/-- A later tree has all directories of an earlier one, locked or not as they were, and paths begin
where they began. -/
structure Keeps (before after : FileTree) : Prop where
  directories : ∀ place, before.node? place = some .directory → after.node? place = some .directory
  locks : after.locks = before.locks
  current : after.current = before.current

theorem Keeps.refl (tree : FileTree) : Keeps tree tree := ⟨fun _ => id, rfl, rfl⟩

theorem Keeps.trans (first : Keeps before middle) (second : Keeps middle after) :
    Keeps before after where
  directories place := second.directories place ∘ first.directories place
  locks := second.locks.trans first.locks
  current := second.current.trans first.current

theorem Keeps.opens (keeps : Keeps before after) (opens : before.Opens place) :
    after.Opens place :=
  ⟨keeps.directories place opens.1, keeps.locks ▸ opens.2⟩

theorem Keeps.start (keeps : Keeps before after) (absolute : Bool) :
    after.start absolute = before.start absolute := by
  rw [FileTree.start, FileTree.start, keeps.current]

/-- Parts lead to the same place where there are more directories. -/
theorem Leads.mono {parts : List String} (keeps : Keeps before after)
    (leads : before.Leads place parts last) : after.Leads place parts last := by
  induction leads with
  | here place => exact .here place
  | step opens rest ih => exact .step (keeps.opens opens) ih

/-- From where a path begins, too, parts lead to the same place. -/
theorem Leads.mono_origin {path : String} {parts : List String} (keeps : Keeps before after)
    (leads : before.Leads (before.origin path) parts place) :
    after.Leads (after.origin path) parts place := by
  rw [origin, keeps.start]
  exact leads.mono keeps

/-- Parts that lead somewhere among more directories lead there if they go through none of the new
ones. -/
theorem Leads.of_through {parts : List String} (leads : after.Leads place parts last)
    (through : ∀ front back between, back ≠ [] → parts = front ++ back →
      after.Leads place front between → after.Opens between → before.Opens between) :
    before.Leads place parts last := by
  induction leads with
  | here place => exact .here place
  | @step place last part parts opens rest ih =>
    have known := through [] _ place (List.cons_ne_nil part parts) rfl (.here place) opens
    refine .step known (ih fun front back between goesOn split leads => ?_)
    exact through (part :: front) back between goesOn (by rw [split, List.cons_append])
      (.step opens leads)

theorem locate_mono {path : String} (keeps : Keeps before after)
    (located : before.locate path = .ok place) : after.locate path = .ok place := by
  obtain ⟨nonblank, leads⟩ := locate_eq_ok_iff.mp located
  exact locate_eq_ok_iff.mpr ⟨nonblank, leads.mono_origin keeps⟩

theorem isDirectory_mono {parts : List String} (keeps : Keeps before after)
    (directory : before.isDirectory place parts = true) :
    after.isDirectory place parts = true := by
  obtain ⟨last, leads, there⟩ := isDirectory_iff.mp directory
  exact isDirectory_iff.mpr ⟨last, leads.mono keeps, keeps.directories last there⟩

/-! ## Changes of a tree -/

theorem putIfFree_eq_ok_iff {node : Node} :
    tree.putIfFree place node = (.ok (), after) ↔
      ∃ free : tree.Free place, after = tree.put place node free := by
  unfold putIfFree
  split
  next free => simp [free, eq_comm]
  next occupied => simp [occupied]

theorem makeDirectory_eq_ok {parts : List String}
    (made : tree.makeDirectory place parts = (.ok (), after)) :
    ∃ (last : Place) (free : tree.Free last), tree.Leads place parts last ∧
      tree.node? last = none ∧ after = tree.put last .directory free := by
  unfold makeDirectory at made
  split at made
  next => cases made
  next last located =>
    split at made
    next => cases made
    next absent =>
      obtain ⟨free, rfl⟩ := putIfFree_eq_ok_iff.mp made
      exact ⟨last, free, placeOf_eq_ok_iff.mp located, by simpa using absent, rfl⟩

theorem write_eq_ok_iff {path : String} {bytes : Bytes} :
    tree.write path bytes = (.ok (), after) ↔
      ∃ (place : Place) (free : tree.Free place), tree.locate path = .ok place ∧
        after = tree.put place (.file bytes) free := by
  unfold write
  split
  next reason unlocated => simp [unlocated]
  next place located =>
    simp only [located, Except.ok.injEq, exists_and_left]
    split
    next directory =>
      constructor
      · intro written
        cases written
      · rintro ⟨_, rfl, free, -⟩
        exact absurd directory free.1
    next =>
      rw [putIfFree_eq_ok_iff]
      constructor
      · rintro ⟨free, rfl⟩
        exact ⟨place, rfl, free, rfl⟩
      · rintro ⟨_, rfl, free, made⟩
        exact ⟨free, made⟩

/-- What can become of a place: it is as it was, it is a directory where there was nothing, or it
is a written file where there was no directory. -/
inductive Becomes (written : Prop) : Option Node → Option Node → Prop where
  | kept (node? : Option Node) : Becomes written node? node?
  | made : Becomes written none (some .directory)
  | overwritten (isWritten : written) {node? : Option Node} (free : node? ≠ some .directory)
      (bytes : Bytes) : Becomes written node? (some (.file bytes))

theorem Becomes.trans {written : Prop} {first second third : Option Node}
    (change : Becomes written first second) (further : Becomes written second third) :
    Becomes written first third := by
  cases change with
  | kept => exact further
  | made =>
    cases further with
    | kept => exact .made
    | overwritten isWritten free => exact absurd rfl free
  | overwritten isWritten free bytes =>
    cases further with
    | kept => exact .overwritten isWritten free bytes
    | overwritten _ _ bytes => exact .overwritten isWritten free bytes

theorem Becomes.directory {written : Prop} {node? : Option Node}
    (becomes : Becomes written (some .directory) node?) : node? = some .directory := by
  cases becomes with
  | kept => rfl
  | overwritten _ free => exact absurd rfl free

theorem Becomes.directory_of {written : Prop} {first : Option Node}
    (becomes : Becomes written first (some .directory)) (known : first ≠ none) :
    first = some .directory := by
  cases becomes with
  | kept => rfl
  | made => exact absurd rfl known

theorem Becomes.file_iff {written : Prop} {first second : Option Node} {bytes : Bytes}
    (becomes : Becomes written first second) (unwritten : ¬written) :
    first = some (.file bytes) ↔ second = some (.file bytes) := by
  cases becomes with
  | kept => exact Iff.rfl
  | made => simp
  | overwritten isWritten => exact absurd isWritten unwritten

/-- A tree has grown: apart from the files at the places that were written, it has all it had, and
perhaps more directories. -/
structure Grows (written : Place → Prop) (before after : FileTree) : Prop where
  becomes : ∀ place, Becomes (written place) (before.node? place) (after.node? place)
  locks : after.locks = before.locks
  current : after.current = before.current

variable {written : Place → Prop}

theorem Grows.refl (tree : FileTree) : Grows written tree tree := ⟨fun _ => .kept _, rfl, rfl⟩

theorem Grows.trans (first : Grows written before middle) (second : Grows written middle after) :
    Grows written before after where
  becomes place := (first.becomes place).trans (second.becomes place)
  locks := second.locks.trans first.locks
  current := second.current.trans first.current

theorem Grows.keeps (grows : Grows written before after) : Keeps before after where
  directories place directory := (directory ▸ grows.becomes place).directory
  locks := grows.locks
  current := grows.current

theorem grows_put {node : Node} (free : tree.Free place)
    (becomes : Becomes (written place) (tree.node? place) (some node)) :
    Grows written tree (tree.put place node free) where
  becomes other := by
    rw [node?_put]
    split
    next same => exact same ▸ becomes
    next => exact .kept _
  locks := rfl
  current := rfl

theorem grows_makeDirectory {parts : List String}
    (made : tree.makeDirectory place parts = (.ok (), after)) : Grows written tree after := by
  obtain ⟨last, free, -, absent, rfl⟩ := makeDirectory_eq_ok made
  refine grows_put free ?_
  rw [absent]
  exact .made

theorem keeps_makeDirectory {parts : List String}
    (made : tree.makeDirectory place parts = (.ok (), after)) : Keeps tree after := by
  have grows : Grows (fun _ => False) tree after := grows_makeDirectory made
  exact grows.keeps

theorem isDirectory_of_makeDirectory {parts : List String}
    (made : tree.makeDirectory place parts = (.ok (), after)) :
    after.isDirectory place parts = true := by
  have keeps := keeps_makeDirectory made
  obtain ⟨last, free, leads, -, rfl⟩ := makeDirectory_eq_ok made
  exact isDirectory_iff.mpr ⟨last, leads.mono keeps, by rw [node?_put, if_pos rfl]⟩

/-- Making a directory with all it is in makes a tree grow, and leaves a directory there. -/
theorem makeDirectories_eq_ok {absolute : Bool} {parts : List String}
    (made : tree.makeDirectories absolute parts = (.ok (), after)) :
    Grows written tree after ∧
      (parts ≠ [] → after.isDirectory (tree.start absolute) parts = true) := by
  -- By the recursion to the directory that the parts are in; it is entered after a first attempt
  -- has failed, and a second attempt follows it.
  fun_induction makeDirectories tree absolute parts generalizing after with
  | case1 =>
    cases made
    exact ⟨.refl tree, fun nonblank => absurd rfl nonblank⟩
  | case2 first others next single =>
    cases made
    exact ⟨grows_makeDirectory single, fun _ => isDirectory_of_makeDirectory single⟩
  | case3 => cases made
  | case4 first others _ single next parents last finished ih =>
    cases made
    obtain ⟨grows, -⟩ := ih parents
    refine ⟨grows.trans (grows_makeDirectory finished), fun _ => ?_⟩
    exact grows.keeps.start absolute ▸ isDirectory_of_makeDirectory finished
  | case5 first others _ single next parents _ reason failed directory ih =>
    cases made
    obtain ⟨grows, -⟩ := ih parents
    exact ⟨grows, fun _ => grows.keeps.start absolute ▸ directory⟩
  | case6 => cases made
  | case7 first others _ reason single failed directory =>
    cases made
    exact ⟨.refl tree, fun _ => directory⟩
  | case8 => cases made

theorem makeDirectory_of_isDirectory {parts : List String}
    (directory : tree.isDirectory place parts = true) :
    tree.makeDirectory place parts = (.error .occupied, tree) := by
  obtain ⟨last, leads, there⟩ := isDirectory_iff.mp directory
  unfold makeDirectory
  rw [placeOf_eq_ok_iff.mpr leads]
  simp [there]

/-- Making a directory that is there changes nothing. -/
theorem makeDirectories_of_isDirectory {absolute : Bool} {parts : List String}
    (directory : parts ≠ [] → tree.isDirectory (tree.start absolute) parts = true) :
    tree.makeDirectories absolute parts = (.ok (), tree) := by
  cases parts with
  | nil => rw [makeDirectories]
  | cons first others =>
    have there := directory (List.cons_ne_nil first others)
    rw [makeDirectories, makeDirectory_of_isDirectory there]
    simp [there]

theorem grows_makePath {path : String} (made : tree.makePath path = (.ok (), after)) :
    Grows written tree after :=
  (makeDirectories_eq_ok made).1

/-- The directory that was made for a path. Without a part it is the one that the path begins
at. -/
theorem exists_leads_of_makePath {path : String} (made : tree.makePath path = (.ok (), after)) :
    ∃ directory, after.Leads (after.origin path) (Path.parts path) directory ∧
      after.node? directory = some .directory := by
  obtain ⟨grows, known⟩ : Grows (fun _ => False) tree after ∧ _ := makeDirectories_eq_ok made
  rw [origin, grows.keeps.start]
  by_cases blank : Path.parts path = []
  · rw [blank]
    refine ⟨_, .here _, grows.keeps.directories _ ?_⟩
    unfold start
    split
    next => rfl
    next => exact tree.current_directory
  · exact isDirectory_iff.mp (known blank)

/-- A path that was made can be made again wherever its directory is, and that changes nothing. -/
theorem makePath_again {path : String} {later : FileTree}
    (made : tree.makePath path = (.ok (), after)) (keeps : Keeps after later) :
    later.makePath path = (.ok (), later) := by
  refine makeDirectories_of_isDirectory fun _ => isDirectory_mono keeps ?_
  rw [keeps.start]
  exact isDirectory_iff.mpr (exists_leads_of_makePath made)

/-! ## Files in a grown tree -/

/-- A path leads to a file, be it one that can be read or not. -/
def HasFile (tree : FileTree) (path : String) (place : Place) (bytes : Bytes) : Prop :=
  tree.locate path = .ok place ∧ tree.node? place = some (.file bytes)

theorem read_eq_ok_iff {path : String} {bytes : Bytes} :
    tree.read path = .ok bytes ↔
      ∃ place, tree.HasFile path place bytes ∧ tree.locks[place]? = none := by
  unfold read HasFile
  cases tree.locate path with
  | error reason => simp [bind, Except.bind]
  | ok place =>
    simp only [bind, Except.bind, Except.ok.injEq, and_assoc, exists_eq_left']
    split
    next missing => simp [missing, throw, throwThe, MonadExceptOf.throw]
    next locked => simp [locked, throw, throwThe, MonadExceptOf.throw]
    next directory _ => simp [directory, throw, throwThe, MonadExceptOf.throw]
    next found unlocked => simp [found, unlocked, pure, Except.pure]

/-- A path leads to a file that can be read. -/
def Readable (tree : FileTree) (path : String) : Prop :=
  ∃ place bytes, tree.HasFile path place bytes ∧ tree.locks[place]? = none

theorem exists_read_iff {path : String} :
    (∃ bytes, tree.read path = .ok bytes) ↔ tree.Readable path := by
  simp only [read_eq_ok_iff]
  exact exists_comm

theorem isFile_iff {path : String} :
    tree.isFile path = true ↔ ∃ place bytes, tree.HasFile path place bytes := by
  unfold isFile HasFile
  cases tree.locate path with
  | error reason => simp
  | ok place =>
    simp only [Except.ok.injEq, exists_and_left, exists_eq_left']
    split
    next found => simp [found]
    next directory => simp [directory]
    next missing => simp [missing]

/-- What is read of a file depends on the file and its lock. -/
theorem HasFile.read_eq {path : String} {bytes : Bytes} (has : tree.HasFile path place bytes) :
    tree.read path = match tree.locks[place]? with
      | some reason => .error (.other reason)
      | none => .ok bytes := by
  obtain ⟨located, found⟩ := has
  unfold read
  rw [located]
  simp only [bind, Except.bind, found]
  cases tree.locks[place]? <;> rfl

/-- A file is still there in a grown tree if it has not been written. -/
theorem Grows.hasFile {path : String} {bytes : Bytes} (grows : Grows written before after)
    (unwritten : ∀ place, after.locate path = .ok place → ¬written place)
    (was : before.HasFile path place bytes) : after.HasFile path place bytes := by
  have still := locate_mono grows.keeps was.1
  exact ⟨still, ((grows.becomes place).file_iff (unwritten place still)).mp was.2⟩

/-- A file that was read can be read again if it has not been written. -/
theorem Grows.read {path : String} {bytes : Bytes} (grows : Grows written before after)
    (unwritten : ∀ place, after.locate path = .ok place → ¬written place)
    (was : before.read path = .ok bytes) : after.read path = .ok bytes := by
  obtain ⟨place, has, unlocked⟩ := read_eq_ok_iff.mp was
  exact read_eq_ok_iff.mpr ⟨place, grows.hasFile unwritten has, grows.locks ▸ unlocked⟩

/-- There is a directory where there was nothing. -/
def Made (before after : FileTree) (place : Place) : Prop :=
  before.node? place = none ∧ after.node? place = some .directory

/-- A path that leads somewhere already goes through no directory that is made later. -/
theorem Grows.not_made {path : String} {between : Place} (grows : Grows written before after)
    (located : before.locate path = .ok place) (passes : after.PassesThrough path between) :
    ¬Made before after between := by
  rintro ⟨absent, -⟩
  obtain ⟨front, back, goesOn, split, leads⟩ := passes
  obtain ⟨-, way⟩ := locate_eq_ok_iff.mp located
  rw [split] at way
  obtain ⟨known, reached, opens⟩ := way.opens_of_append goesOn
  rw [(reached.mono_origin grows.keeps).unique leads] at opens
  cases absent.symm.trans opens.1

/-- A path leads to a file of a grown tree exactly if it led to it before, unless the file has been
written or is reached by way of a directory that was made. -/
theorem Grows.hasFile_iff {path : String} {bytes : Bytes} (grows : Grows written before after)
    (unwritten : ∀ place, after.locate path = .ok place → ¬written place)
    (through : ∀ place, after.PassesThrough path place → ¬Made before after place) :
    before.HasFile path place bytes ↔ after.HasFile path place bytes := by
  refine ⟨grows.hasFile unwritten, fun is => ?_⟩
  obtain ⟨located, file⟩ := is
  obtain ⟨nonblank, leads⟩ := locate_eq_ok_iff.mp located
  have was : before.Leads (before.origin path) (Path.way path) place := by
    rw [origin, ← grows.keeps.start]
    refine leads.of_through fun front back between goesOn split leads opens => ?_
    have becomes := grows.becomes between
    rw [opens.1] at becomes
    refine ⟨becomes.directory_of fun absent => ?_, grows.locks ▸ opens.2⟩
    exact through between ⟨front, back, goesOn, split, leads⟩ ⟨absent, opens.1⟩
  exact ⟨locate_eq_ok_iff.mpr ⟨nonblank, was⟩,
    ((grows.becomes place).file_iff (unwritten place located)).mpr file⟩

end FileTree
end TileCensus
