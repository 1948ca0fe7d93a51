import TileCensus.Proofs.ReportBitmaps

/-!
# What a run touches

A run that cannot load what it is to read changes nothing. What it needs is said of the tree and the
arguments alone (`Loadable`): everything that is named can be read, and a file of instance lines is
the only thing that may as well not be there. A run that ends well leaves the files of its census in
the output directory (`HasOutput`): that directory and those on the way to it are there, and
everything else is as it was. Both are said of all trees and arguments by `run_footprint`.

A path is a way of its own, in which a dot stays where it is and two go back, so the directories
that are made for it are told by the beginnings of that way (`OnWay`). The files are told by their
names, since a path that is joined with a name leads to that name in the directory that the path
leads to (`eq_child_of_locate_join`).
-/

namespace TileCensus

open FileTree

/-! ## Paths that are joined with a name -/

namespace Text

variable {keep : Char → Bool} {c : Char}

/-- A character that is not kept ends a run. -/
theorem runsFrom_append_cons (other : ¬keep c = true) (run line rest : List Char) :
    runsFrom keep run (line ++ c :: rest) = runsFrom keep run line ++ runsFrom keep [] rest := by
  induction line generalizing run with
  | nil => simp [runsFrom, other]
  | cons d line ih =>
    simp only [List.cons_append, runsFrom]
    split
    next => exact ih (d :: run)
    next => rw [ih [], List.append_assoc]

theorem runsFrom_of_kept {line : List Char} (kept : ∀ c ∈ line, keep c = true) (run : List Char) :
    runsFrom keep run line = finishRun (line.reverse ++ run) := by
  induction line generalizing run with
  | nil => rfl
  | cons c line ih =>
    obtain ⟨head, tail⟩ := List.forall_mem_cons.mp kept
    rw [runsFrom, if_pos head, ih tail, List.reverse_cons, List.append_assoc]
    rfl

end Text

namespace Path

/-- The name of something in a directory: one part of a path, and no dot or two. -/
def IsEntryName (name : String) : Prop :=
  name.toList ≠ [] ∧ '/' ∉ name.toList ∧ name ≠ "." ∧ name ≠ ".."

instance (name : String) : Decidable (IsEntryName name) := inferInstanceAs (Decidable (_ ∧ _))

theorem parts_of_isEntryName {name : String} (named : IsEntryName name) :
    parts name = [name] := by
  obtain ⟨nonblank, single, -⟩ := named
  have kept : ∀ c ∈ name.toList, decide (c ≠ '/') = true := by
    intro c mem
    rw [decide_eq_true_eq]
    rintro rfl
    exact single mem
  rw [parts, Text.runsFrom_of_kept kept, List.append_nil, Text.finishRun]
  simp [nonblank]

theorem not_endsInSlash_append {name : String} (named : IsEntryName name) (front : String) :
    endsInSlash (front ++ name) = false := by
  obtain ⟨nonblank, single, -⟩ := named
  rw [endsInSlash, String.toList_append, List.getLast?_append_of_ne_nil _ nonblank]
  rw [decide_eq_false_iff_not]
  intro slash
  exact single (List.mem_of_getLast? slash)

/-- A path that is joined with a name begins where the path begins. -/
theorem isAbsolute_join {directory name : String} (named : IsEntryName name) :
    isAbsolute (join directory name) = isAbsolute directory := by
  have relative : name.toList.head? ≠ some '/' := by
    intro slash
    exact named.2.1 (List.mem_of_head? slash)
  unfold join
  rw [if_neg relative]
  split
  next blank =>
    obtain rfl : directory = "" := String.toList_inj.mp (List.getLast?_eq_none_iff.mp blank)
    simp [isAbsolute, relative]
  next c last =>
    have nonblank : directory.toList ≠ [] := by
      intro blank
      rw [blank] at last
      cases last
    have kept (back : String) : isAbsolute (directory ++ back) = isAbsolute directory := by
      rw [isAbsolute, isAbsolute, String.toList_append, List.head?_append_of_ne_nil _ nonblank]
    split
    next => exact kept name
    next => rw [String.append_assoc, kept]

/-- A path that is joined with a name has the parts of the path and then the name. -/
theorem way_join {directory name : String} (named : IsEntryName name) :
    way (join directory name) = parts directory ++ [name] := by
  have relative : name.toList.head? ≠ some '/' := by
    intro slash
    exact named.2.1 (List.mem_of_head? slash)
  have parted := parts_of_isEntryName named
  have ended (front : String) : way (front ++ name) = parts (front ++ name) := by
    rw [way, not_endsInSlash_append named]
    exact List.append_nil _
  unfold join
  rw [if_neg relative]
  split
  next blank =>
    obtain rfl : directory = "" := String.toList_inj.mp (List.getLast?_eq_none_iff.mp blank)
    have unjoined := ended ""
    rw [String.empty_append, parted] at unjoined
    exact unjoined
  next c last =>
    split
    next slash =>
      subst slash
      obtain ⟨front, split⟩ := List.getLast?_eq_some_iff.mp last
      rw [ended, ← parted]
      simp only [parts, String.toList_append, split, List.append_assoc, List.singleton_append]
      rw [Text.runsFrom_append_cons (by simp), Text.runsFrom_append_cons (by simp), List.map_append,
        List.map_append]
      simp [Text.runsFrom, Text.finishRun]
    next =>
      rw [ended, ← parted]
      have slash : "/".toList = ['/'] := rfl
      simp only [parts, String.toList_append, slash, List.append_assoc, List.singleton_append]
      rw [Text.runsFrom_append_cons (by simp), List.map_append]

end Path

namespace FileTree

variable {tree after : FileTree} {place last : Place}

/-! ## Directories that are made -/

/-- A place that a path comes by: its parts lead there, or the first of them do. -/
def OnWay (tree : FileTree) (path : String) (place : Place) : Prop :=
  ∃ front, front <+: Path.parts path ∧ tree.Leads (tree.origin path) front place

theorem Leads.opens {parts : List String} (leads : tree.Leads place parts last)
    (there : tree.Opens last) : tree.Opens place := by
  cases leads with
  | here => exact there
  | step opens => exact opens

/-- Dots on a way to a directory can be passed over. -/
theorem leads_of_filter {parts : List String} (there : tree.Opens last)
    (leads : tree.Leads place (parts.filter (· ≠ ".")) last) : tree.Leads place parts last := by
  induction parts generalizing place with
  | nil => exact leads
  | cons part parts ih =>
    by_cases dot : part = "."
    · subst dot
      rw [List.filter_cons_of_neg (by simp)] at leads
      exact .step (leads.opens there) (ih leads)
    · rw [List.filter_cons_of_pos (by simpa using dot)] at leads
      cases leads with
      | step opens rest => exact .step opens (ih rest)

theorem exists_prefix_of_filter {front parts : List String} (there : tree.Opens last)
    (within : front <+: parts.filter (· ≠ ".")) (leads : tree.Leads place front last) :
    ∃ front, front <+: parts ∧ tree.Leads place front last := by
  obtain ⟨whole, inside, rfl⟩ := List.prefix_filter_iff.mp within
  exact ⟨whole, inside, leads_of_filter there leads⟩

theorem exists_prefix_of_parentParts {absolute : Bool} {front parts : List String}
    (there : tree.Opens last) (within : front <+: parentParts absolute parts)
    (leads : tree.Leads place front last) :
    ∃ front, front <+: parts ∧ tree.Leads place front last := by
  unfold parentParts at within
  split at within
  next first others =>
    have shorter := within.trans (List.dropLast_prefix _)
    cases front with
    | nil => exact ⟨[], List.nil_prefix, leads⟩
    | cons part front =>
      obtain ⟨rfl, rest⟩ := List.cons_prefix_cons.mp shorter
      cases leads with
      | step opens others =>
        obtain ⟨whole, inside, leads⟩ := exists_prefix_of_filter there rest others
        exact ⟨part :: whole, List.cons_prefix_cons.mpr ⟨rfl, inside⟩, .step opens leads⟩
  next => exact exists_prefix_of_filter there (within.trans (List.dropLast_prefix _)) leads

/-- Making a directory changes nothing but that place, where it makes one. -/
theorem made_of_makeDirectory {parts : List String}
    (made : tree.makeDirectory place parts = (.ok (), after)) (other : Place) :
    after.node? other = tree.node? other ∨ after.Opens other ∧ after.Leads place parts other := by
  have keeps := keeps_makeDirectory made
  obtain ⟨new, free, leads, absent, rfl⟩ := makeDirectory_eq_ok made
  have unlocked : tree.locks[new]? = none := locks_of_absent absent
  rw [node?_put]
  split
  next same =>
    subst same
    exact .inr ⟨⟨by rw [node?_put, if_pos rfl], unlocked⟩, leads.mono keeps⟩
  next => exact .inl rfl

/-- Making a directory with all it is to be in changes nothing but places on the way to it, where
it makes directories. -/
theorem made_of_makeDirectories {absolute : Bool} {parts : List String}
    (made : tree.makeDirectories absolute parts = (.ok (), after)) (place : Place) :
    after.node? place = tree.node? place ∨ after.Opens place ∧
      ∃ front, front <+: parts ∧ after.Leads (after.start absolute) front place := by
  -- Along the recursion to the directory that the parts are in. What is made there is on the way
  -- to the parts, too.
  fun_induction makeDirectories tree absolute parts generalizing after with
  | case1 =>
    cases made
    exact .inl rfl
  | case2 first others next single =>
    cases made
    rcases made_of_makeDirectory single place with kept | ⟨there, leads⟩
    · exact .inl kept
    · exact .inr ⟨there, _, List.prefix_rfl, (keeps_makeDirectory single).start absolute ▸ leads⟩
  | case3 => cases made
  | case4 first others _ single next parents last finished ih =>
    cases made
    have keeps := keeps_makeDirectory finished
    rw [keeps.start]
    rcases made_of_makeDirectory finished place with kept | ⟨there, leads⟩
    · rw [kept]
      rcases ih parents with kept | ⟨there, front, within, leads⟩
      · exact .inl kept
      · have opens := keeps.opens there
        exact .inr ⟨opens, exists_prefix_of_parentParts opens within (leads.mono keeps)⟩
    · exact .inr ⟨there, _, List.prefix_rfl, leads⟩
  | case5 first others _ single next parents _ reason failed directory ih =>
    cases made
    rcases ih parents with kept | ⟨there, front, within, leads⟩
    · exact .inl kept
    · exact .inr ⟨there, exists_prefix_of_parentParts there within leads⟩
  | case6 => cases made
  | case7 =>
    cases made
    exact .inl rfl
  | case8 => cases made

/-- What a path comes by is a directory if it leads to one. -/
theorem OnWay.directory {path : String} {directory : Place}
    (leads : tree.Leads (tree.origin path) (Path.parts path) directory)
    (there : tree.node? directory = some .directory) (onWay : tree.OnWay path place) :
    tree.node? place = some .directory := by
  obtain ⟨front, ⟨back, split⟩, reached⟩ := onWay
  by_cases ends : back = []
  · subst ends
    rw [← split, List.append_nil] at leads
    rw [reached.unique leads, there]
  · rw [← split] at leads
    obtain ⟨between, reached', opens⟩ := leads.opens_of_append ends
    rw [reached.unique reached', opens.1]

/-- A path that is joined with a name leads to that name in the directory of the path. -/
theorem eq_child_of_locate_join {path name : String} (named : Path.IsEntryName name)
    {directory : Place} (leads : tree.Leads (tree.origin path) (Path.parts path) directory)
    (located : tree.locate (Path.join path name) = .ok place) : place = directory.child name := by
  obtain ⟨-, way⟩ := locate_eq_ok_iff.mp located
  rw [origin, Path.way_join named, Path.isAbsolute_join named] at way
  obtain ⟨between, reached, opens⟩ := way.opens_of_append (List.cons_ne_nil name [])
  obtain rfl := reached.unique leads
  have moves : between.next name = between.child name := by
    rw [Place.next, if_neg named.2.2.1, if_neg named.2.2.2]
  exact moves ▸ way.unique (leads.append (.step opens (.here _)))

end FileTree

/-! ## What has to be there -/

/-- Everything that a run needs of a tree is there: the rules, if a file is named for them are in
it, and all inputs can be read, the files of instance lines as far as they are there. -/
structure FileTree.Loadable (tree : FileTree) (arguments : Arguments) : Prop where
  rules : ∃ rules, (readRules tree.disk arguments.rules).run = .ok rules ∧
    ∀ rule ∈ rules, tree.isFile (Path.join arguments.instances rule.file) = true →
      tree.Readable (Path.join arguments.instances rule.file)
  constants : tree.Readable arguments.constants
  variableNames : tree.Readable arguments.variableNames
  scripts : tree.Walkable arguments.scripts
  definitions : ∀ path, arguments.definitions = some path → tree.Readable path

namespace Loading

variable {α β : Type}

/-- A part of loading does not fail, whatever was told before. -/
def Succeeds (loading : Loading α) : Prop :=
  ∀ told, ∃ value log, loading.run.run told = (.ok value, log)

theorem Succeeds.bind {first : Loading α} {rest : α → Loading β} (begins : Succeeds first)
    (goesOn : ∀ value, Succeeds (rest value)) : Succeeds (first >>= rest) := by
  intro told
  obtain ⟨middle, said, did⟩ := begins told
  rw [ExceptT.run_bind, StateT.run_bind, did]
  exact goesOn middle said

theorem succeeds_pure (value : α) : Succeeds (pure value) := fun told => ⟨value, told, rfl⟩

theorem succeeds_tell (log : Log) : Succeeds (tell log) := fun told => ⟨(), told ++ log, rfl⟩

theorem succeeds_require {ε : Type} {failure : ε → LoadError} {found : Except ε α}
    (read : ∃ value, found = .ok value) : Succeeds (require failure found) := by
  obtain ⟨value, rfl⟩ := read
  exact succeeds_pure value

theorem succeeds_mapM {act : α → Loading β} {things : List α}
    (each : ∀ thing ∈ things, Succeeds (act thing)) : Succeeds (things.mapM act) := by
  induction things with
  | nil => exact succeeds_pure []
  | cons thing things ih =>
    obtain ⟨first, others⟩ := List.forall_mem_cons.mp each
    rw [List.mapM_cons]
    exact first.bind fun _ => (ih others).bind fun _ => succeeds_pure _

end Loading

namespace Inputs

open Loading

variable {inputs : Inputs} {arguments : Arguments}

theorem Complete.succeeds_loadDefinitions (complete : inputs.Complete) (path : Option String) :
    Succeeds (inputs.loadDefinitions path) := by
  unfold loadDefinitions
  split
  next path text given =>
    exact (succeeds_require (complete.definitions text given)).bind fun _ => succeeds_pure _
  next => exact succeeds_pure none

theorem Complete.succeeds_loadInstances (complete : inputs.Complete) :
    Succeeds inputs.loadInstances := by
  refine (succeeds_mapM fun input mem => ?_).bind fun _ => succeeds_pure _
  unfold InstanceInput.load
  dsimp only
  split
  next text given =>
    exact (succeeds_require (complete.instances input mem text given)).bind fun _ =>
      succeeds_pure _
  next => exact (succeeds_tell _).bind fun _ => succeeds_pure none

/-- Complete inputs make a corpus. -/
theorem Complete.exists_load (complete : inputs.Complete) (arguments : Arguments) :
    ∃ corpus log, inputs.load arguments = (.ok corpus, log) := by
  have constants : Succeeds (inputs.loadConstants arguments.constants) := by
    refine (succeeds_require complete.constants).bind fun text => ?_
    refine (succeeds_tell _).bind fun _ => ?_
    split
    next => exact (succeeds_tell _).bind fun _ => succeeds_pure _
    next => exact (succeeds_tell _).bind fun _ => succeeds_pure _
  have variableNames : Succeeds (inputs.loadVariables arguments.variableNames) :=
    (succeeds_require complete.variableNames).bind fun _ =>
      (succeeds_tell _).bind fun _ => (succeeds_tell _).bind fun _ => succeeds_pure _
  have scripts : Succeeds (inputs.loadScripts arguments.scripts) :=
    (succeeds_require complete.scripts).bind fun _ =>
      (succeeds_tell _).bind fun _ => succeeds_pure _
  have instances := complete.succeeds_loadInstances
  have definitions := complete.succeeds_loadDefinitions arguments.definitions
  exact (constants.bind fun _ => variableNames.bind fun _ => scripts.bind fun _ =>
    instances.bind fun _ => definitions.bind fun _ => succeeds_pure _) []

/-- A corpus has definitions if they were found. -/
theorem isSome_definitions_of_load {corpus : Corpus} {log : Log}
    (loaded : inputs.load arguments = (.ok corpus, log)) :
    corpus.definitions.isSome = (arguments.definitions.isSome && inputs.definitions.isSome) := by
  obtain ⟨_, _, -, loaded⟩ := exists_of_bind loaded
  obtain ⟨_, _, -, loaded⟩ := exists_of_bind loaded
  obtain ⟨_, _, -, loaded⟩ := exists_of_bind loaded
  obtain ⟨_, _, -, loaded⟩ := exists_of_bind loaded
  obtain ⟨definitions, _, scanned, loaded⟩ := exists_of_bind loaded
  cases loaded
  unfold loadDefinitions at scanned
  split at scanned
  next named given =>
    obtain ⟨_, _, -, made⟩ := exists_of_bind scanned
    cases made
    simp [named, given]
  next missing =>
    cases scanned
    cases named : arguments.definitions <;> cases given : inputs.definitions <;> simp_all

end Inputs

/-- A failure that comes of what a run was to read. -/
def RunError.OfInputs : RunError → Prop
  | rules _ | loading _ => True
  | creating .. | writingBitmaps _ | writingReport _ => False

namespace FileTree

variable {tree after : FileTree} {arguments : Arguments} {census : Census}

theorem exists_map_eq_ok_iff {ε α β : Type} {make : α → β} {found : Except ε α} :
    (∃ value, found.map make = .ok value) ↔ ∃ value, found = .ok value := by
  cases found with
  | error reason => exact iff_of_false nofun nofun
  | ok value => exact iff_of_true ⟨_, rfl⟩ ⟨_, rfl⟩

theorem exists_text_instanceInput_iff {directory : String} {rule : Instance.Rule} :
    (∀ found, (tree.instanceInput directory rule).text = some found → ∃ text, found = .ok text) ↔
      (tree.isFile (Path.join directory rule.file) = true →
        tree.Readable (Path.join directory rule.file)) := by
  unfold instanceInput
  dsimp only
  split
  next there => simp [there, exists_map_eq_ok_iff, exists_read_iff]
  next absent => simp [absent]

theorem loadable_iff :
    tree.Loadable arguments ↔ ∃ rules, (readRules tree.disk arguments.rules).run = .ok rules ∧
      (tree.inputs arguments rules).Complete := by
  have readable {path : String} : tree.Readable path ↔
      ∃ text, (tree.read path).map Text.Utf8.decodeLossy = .ok text := by
    rw [exists_map_eq_ok_iff, exists_read_iff]
  constructor
  · intro loadable
    obtain ⟨rules, read, instances⟩ := loadable.rules
    refine ⟨rules, read, readable.mp loadable.constants, readable.mp loadable.variableNames,
      exists_map_eq_ok_iff.mpr (exists_files_iff.mpr loadable.scripts), fun input mem => ?_,
      fun found given => ?_⟩
    · obtain ⟨rule, listed, rfl⟩ := List.mem_map.mp mem
      exact exists_text_instanceInput_iff.mpr (instances rule listed)
    · obtain ⟨path, named, rfl⟩ := Option.map_eq_some_iff.mp given
      exact readable.mp (loadable.definitions path named)
  · intro complete
    obtain ⟨rules, read, complete⟩ := complete
    refine ⟨⟨rules, read, fun rule mem => ?_⟩, readable.mpr complete.constants,
      readable.mpr complete.variableNames,
      exists_files_iff.mp (exists_map_eq_ok_iff.mp complete.scripts), fun path named => ?_⟩
    · exact exists_text_instanceInput_iff.mp
        (complete.instances _ (List.mem_map_of_mem mem))
    · exact readable.mpr
        (complete.definitions _ (Option.map_eq_some_iff.mpr ⟨path, named, rfl⟩))

/-- An examination leads to a census if what the run needs can be read, and fails because of its
inputs if not. -/
theorem examine_cases (tree : FileTree) (arguments : Arguments) :
    (∃ census, (examine tree.disk arguments).run.census = .ok census ∧ tree.Loadable arguments ∧
      census.definitions.isSome = arguments.definitions.isSome) ∨
    ∃ reason, (examine tree.disk arguments).run.census = .error reason ∧ reason.OfInputs ∧
      ¬tree.Loadable arguments := by
  rw [examine_disk, loadable_iff]
  cases read : (readRules tree.disk arguments.rules).run with
  | error failure =>
    refine .inr ⟨.rules failure, rfl, trivial, ?_⟩
    rintro ⟨rules, known, -⟩
    cases known
  | ok rules =>
    dsimp only
    by_cases complete : (tree.inputs arguments rules).Complete
    · obtain ⟨corpus, log, loaded⟩ := complete.exists_load arguments
      have census : ((tree.inputs arguments rules).examine arguments).census =
          .ok (corpus.census log.diagnostics) := by
        rw [Inputs.examine, loaded, Corpus.census]
      refine .inl ⟨_, census, ⟨rules, rfl, complete⟩, ?_⟩
      have scanned := Inputs.isSome_definitions_of_load loaded
      simpa [Corpus.census, Survey.census, Corpus.survey, inputs] using scanned
    · cases loaded : (tree.inputs arguments rules).load arguments with
      | mk result log =>
        cases result with
        | ok corpus => exact absurd (Inputs.complete_of_load (by simp [inputs]) loaded) complete
        | error failure =>
          refine .inr ⟨.loading failure, by rw [Inputs.examine, loaded], trivial, ?_⟩
          rintro ⟨_, known, complete'⟩
          cases known
          exact complete complete'

end FileTree

/-! ## What a run leaves -/

namespace Census

/-- The names of the files of a census, with or without those that definitions are scanned into. -/
def fileNames (scanned : Bool) : List String := (stems scanned).map (· ++ ".bin") ++ ["report.json"]

/-- The files of a census, by their names in the output directory. -/
def files (census : Census) : List (String × Bytes) :=
  census.bitmaps.map (fun named => (named.1 ++ ".bin", named.2.bytes)) ++
    [("report.json", Text.Utf8.encode (Report.ofCensus census).text)]

variable (census : Census)

theorem writes_eq (output : String) :
    census.writes output = census.files.map fun file => (Path.join output file.1, file.2) := by
  rw [writes, files, List.map_append, List.map_map]
  rfl

theorem map_files : census.files.map (·.1) = fileNames census.definitions.isSome := by
  rw [files, fileNames, ← map_bitmaps, List.map_append, List.map_map, List.map_map]
  rfl

theorem nodup_fileNames (scanned : Bool) : (fileNames scanned).Nodup := by
  cases scanned with
  | false => decide
  | true => decide

theorem length_bitmaps :
    census.bitmaps.length = if census.definitions.isSome then 8 else 5 := by
  have names := congrArg List.length census.map_bitmaps
  rw [List.length_map] at names
  rw [names]
  cases census.definitions.isSome with
  | false => rfl
  | true => rfl

theorem isEntryName_of_mem_files {file : String × Bytes} (mem : file ∈ census.files) :
    Path.IsEntryName file.1 := by
  have listed : file.1 ∈ fileNames census.definitions.isSome :=
    census.map_files ▸ List.mem_map_of_mem mem
  have named : ∀ scanned, ∀ name ∈ fileNames scanned, Path.IsEntryName name := by decide
  exact named _ _ listed

end Census

namespace FileTree

variable {tree after : FileTree} {arguments : Arguments} {census : Census} {output : String}

/-- A tree has got the files of a census in a directory, that directory and those on the way to it,
and nothing else. -/
structure HasOutput (census : Census) (output : String) (before after : FileTree)
    (directory : Place) : Prop where
  leads : after.Leads (after.origin output) (Path.parts output) directory
  files : ∀ file ∈ census.files, after.node? (directory.child file.1) = some (.file file.2)
  made : ∀ place, after.OnWay output place → after.node? place = some .directory ∧
    (before.node? place = some .directory ∨ before.node? place = none)
  kept : ∀ place, ¬after.OnWay output place →
    (∀ file ∈ census.files, place ≠ directory.child file.1) →
      after.node? place = before.node? place
  locks : after.locks = before.locks
  current : after.current = before.current

/-- A file that is not one of the census keeps its bytes. -/
theorem HasOutput.file_kept {before : FileTree} {directory place : Place} {bytes : Bytes}
    (has : HasOutput census output before after directory)
    (file : before.node? place = some (.file bytes))
    (unnamed : ∀ file ∈ census.files, place ≠ directory.child file.1) :
    after.node? place = some (.file bytes) := by
  rw [has.kept place ?_ unnamed, file]
  intro onWay
  rcases (has.made place onWay).2 with there | absent
  · rw [file] at there
    cases there
  · rw [file] at absent
    cases absent

/-- Files that are put into a directory one after the other are put under their names. -/
theorem entries_eq_of_placed {directory : Place} {entries : List (Place × Node)}
    {files : List (String × Bytes)} (named : ∀ file ∈ files, Path.IsEntryName file.1)
    (leads : tree.Leads (tree.origin output) (Path.parts output) directory)
    (placed : List.Forall₂ (Placed tree)
      (files.map fun file => (Path.join output file.1, file.2)) entries) :
    entries = files.map fun file => (directory.child file.1, .file file.2) := by
  induction files generalizing entries with
  | nil =>
    cases placed
    rfl
  | cons file files ih =>
    obtain ⟨head, tail⟩ := List.forall_mem_cons.mp named
    cases placed with
    | @cons _ entry _ entries first rest =>
      obtain ⟨place, node⟩ := entry
      obtain ⟨located, -, rfl⟩ := first
      obtain rfl := eq_child_of_locate_join head leads located
      rw [List.map_cons, ih tail rest]

section Entries

variable {next : FileTree} {directory : Place}
  (nodes : after.nodes = Table.putAll next.nodes
    (census.files.map fun file => (directory.child file.1, .file file.2)))

include nodes

theorem node?_child_of_putAll {file : String × Bytes} (mem : file ∈ census.files) :
    after.node? (directory.child file.1) = some (.file file.2) := by
  have distinct : ((census.files.map fun file =>
      (directory.child file.1, Node.file file.2)).map (·.1)).Nodup := by
    have names := Census.nodup_fileNames census.definitions.isSome
    rw [← census.map_files] at names
    have children := names.map directory.child_injective
    rwa [List.map_map] at children ⊢
  rw [node?, nodeAt?, if_neg (directory.child_ne_root _), nodes]
  exact Table.getElem?_putAll_of_mem distinct (List.mem_map_of_mem mem)

theorem node?_of_putAll {place : Place}
    (unnamed : ∀ file ∈ census.files, place ≠ directory.child file.1) :
    after.node? place = next.node? place := by
  unfold node? nodeAt?
  rw [nodes, Table.getElem?_putAll_of_not_mem]
  intro entry mem
  obtain ⟨file, listed, rfl⟩ := List.mem_map.mp mem
  exact (unnamed file listed).symm

end Entries

/-- Making the output directory and writing the files of a census into it leaves its output. -/
theorem exists_hasOutput_of_applies
    (applies : Applies tree (.makePath output :: (census.writes output).map writeEffect) after) :
    ∃ directory, HasOutput census output tree after directory := by
  have grows : Grows (fun _ => True) tree after := applies.grows fun _ _ _ _ _ => trivial
  cases applies with
  | @cons _ next _ _ _ first rest =>
    obtain ⟨⟨on, back⟩, entries, placed, nodes⟩ := rest.exists_placed
    obtain ⟨directory, leads, there⟩ := exists_leads_of_makePath first
    rw [Census.writes_eq] at placed
    obtain rfl := entries_eq_of_placed (fun _ => census.isEntryName_of_mem_files) leads placed
    refine ⟨directory, leads.mono_origin on, fun file mem => node?_child_of_putAll nodes mem,
      fun place onWay => ?_, fun place apart unnamed => ?_, grows.locks, grows.current⟩
    · have known : after.node? place = some .directory := by
        obtain ⟨front, within, reached⟩ := onWay
        have earlier : next.OnWay output place := ⟨front, within, reached.mono_origin back⟩
        exact on.directories place (earlier.directory leads there)
      have becomes := grows.becomes place
      rw [known] at becomes
      exact ⟨known, or_iff_not_imp_right.mpr becomes.directory_of⟩
    · rw [node?_of_putAll nodes unnamed]
      rcases made_of_makeDirectories first place with kept | ⟨-, front, within, reached⟩
      · exact kept
      · exact absurd ⟨front, within, reached.mono_origin on⟩ apart

/-! ## How a run ends -/

/-- A run that finds no census ends where it has begun. -/
theorem run_of_error {reason : RunError}
    (failed : (examine tree.disk arguments).run.census = .error reason) :
    (tree.run arguments).1.census = .error reason ∧ (tree.run arguments).2 = tree := by
  rw [run_eq]
  generalize (examine tree.disk arguments).run = examination at failed ⊢
  obtain ⟨log, found⟩ := examination
  cases failed
  exact ⟨rfl, rfl⟩

theorem exists_failure_of_takeSteps {steps : List Step} {told log : Log} {reason : RunError}
    (failed : takeSteps FileTree.apply told steps tree = ((.error reason, log), after)) :
    ∃ step ∈ steps, ∃ cause, reason = step.failure cause := by
  induction steps generalizing told tree with
  | nil => cases failed
  | cons step steps ih =>
    simp only [takeSteps, bind, StateT.bind] at failed
    cases applied : FileTree.apply step.effect tree with
    | mk result next =>
      rw [applied] at failed
      cases result with
      | error cause =>
        cases failed
        exact ⟨step, List.mem_cons_self, cause, rfl⟩
      | ok done =>
        obtain ⟨step, mem, cause, same⟩ := ih failed
        exact ⟨step, List.mem_cons_of_mem _ mem, cause, same⟩

theorem not_ofInputs_of_mem_steps {step : Step} (mem : step ∈ census.steps output)
    (cause : FileError) : ¬(step.failure cause).OfInputs := by
  rcases List.mem_append.mp mem with mem | mem
  · rcases List.mem_cons.mp mem with rfl | mem
    · exact id
    · obtain ⟨named, -, rfl⟩ := List.mem_map.mp mem
      exact id
  · obtain rfl := List.mem_singleton.mp mem
    exact id

/-- A run that finds a census does not fail because of its inputs. -/
theorem not_ofInputs_of_run {reason : RunError}
    (found : (examine tree.disk arguments).run.census = .ok census)
    (failed : (tree.run arguments).1.census = .error reason) : ¬reason.OfInputs := by
  rw [run_eq] at failed
  generalize (examine tree.disk arguments).run = examination at found failed
  obtain ⟨log, result⟩ := examination
  cases found
  dsimp only at failed
  cases taken : takeSteps FileTree.apply log
      (Examination.steps arguments.output ⟨log, .ok census⟩) tree with
  | mk outcome last =>
    obtain ⟨outcome, said⟩ := outcome
    rw [taken] at failed
    cases outcome with
    | ok done => cases failed
    | error cause =>
      cases failed
      obtain ⟨step, mem, cause, rfl⟩ := exists_failure_of_takeSteps taken
      exact not_ofInputs_of_mem_steps mem cause

/-- A run fails because of its inputs exactly if something that it needs cannot be read, and then it
changes nothing. If it ends well, it has put the files of its census into the output directory, one
for each bitmap and the report, and all other files are as they were. There are five bitmaps, or
eight if definitions are given. -/
theorem run_footprint (tree : FileTree) (arguments : Arguments) :
    let run := (tree.run arguments).1
    let after := (tree.run arguments).2
    ((∃ reason, run.census = .error reason ∧ reason.OfInputs) ↔ ¬tree.Loadable arguments) ∧
      (¬tree.Loadable arguments → after = tree) ∧
      ∀ census, run.census = .ok census →
        census.bitmaps.length = (if arguments.definitions.isSome then 8 else 5) ∧
          census.files.map (·.1) = census.bitmaps.map (·.1 ++ ".bin") ++ ["report.json"] ∧
          ∃ directory, HasOutput census arguments.output tree after directory ∧
            ∀ place bytes, tree.node? place = some (.file bytes) →
              (∀ file ∈ census.files, place ≠ directory.child file.1) →
                after.node? place = some (.file bytes) := by
  intro run after
  rcases examine_cases tree arguments with ⟨census, found, loadable, scanned⟩ |
    ⟨reason, failed, ofInputs, unloadable⟩
  · refine ⟨iff_of_false ?_ (not_not.mpr loadable), fun unloadable => absurd loadable unloadable,
      fun other succeeded => ?_⟩
    · rintro ⟨reason, failed, ofInputs⟩
      exact not_ofInputs_of_run found failed ofInputs
    · obtain ⟨examined, applies, -⟩ := (run_eq_ok_iff succeeded).mp rfl
      rw [found] at examined
      cases examined
      obtain ⟨directory, has⟩ := exists_hasOutput_of_applies applies
      refine ⟨by rw [census.length_bitmaps, scanned], ?_, directory, has, ?_⟩
      · rw [Census.files, List.map_append, List.map_map]
        rfl
      · exact fun place bytes => has.file_kept
  · obtain ⟨ended, unchanged⟩ := run_of_error failed
    refine ⟨iff_of_true ⟨reason, ended, ofInputs⟩ unloadable, fun _ => unchanged, ?_⟩
    intro census succeeded
    have both := ended.symm.trans succeeded
    cases both

/-- The tree with a script that cannot be read. -/
def workshopLockedScript : FileTree :=
  workshop.lock (.ofNames ["in", "con", "a.con"]) "Permission denied (os error 13)"
    (by decide +kernel)

/-- The tree with a file of instance lines that cannot be read. -/
def workshopLockedSpawn : FileTree :=
  workshop.lock (.ofNames ["in", "spawn"]) "Input/output error (os error 5)" (by decide +kernel)

theorem not_loadable_workshopLockedScript : ¬workshopLockedScript.Loadable workshopArguments := by
  intro loadable
  obtain ⟨place, located, -, clear⟩ := loadable.scripts
  have known : workshopLockedScript.locate workshopArguments.scripts =
      .ok (.ofNames ["in", "con"]) := by decide +kernel
  rw [known] at located
  cases located
  have unlocked := clear (.ofNames ["in", "con", "a.con"]) (by decide)
  revert unlocked
  decide +kernel

theorem not_loadable_workshopLockedSpawn : ¬workshopLockedSpawn.Loadable workshopArguments := by
  intro loadable
  obtain ⟨rules, read, instances⟩ := loadable.rules
  have known : (readRules workshopLockedSpawn.disk workshopArguments.rules).run =
      .ok [⟨"spawn", ["spawn"], 1, .spawn⟩, ⟨"gone", ["actor"], 1, .actor⟩] := by decide +kernel
  rw [known] at read
  cases read
  have readable := instances _ List.mem_cons_self (by decide +kernel)
  obtain ⟨bytes, was⟩ := exists_read_iff.mpr readable
  have locked : workshopLockedSpawn.read (Path.join workshopArguments.instances "spawn") =
      .error (.other "Input/output error (os error 5)") := by decide +kernel
  rw [locked] at was
  cases was

/-- A run with definitions that leaves eight bitmaps, and two that find something they cannot
read. -/
theorem run_footprint_workshop :
    (∃ census directory, (workshop.run workshopArguments).1.census = .ok census ∧
      census.bitmaps.length = 8 ∧
      HasOutput census "../out/tiles" workshop (workshop.run workshopArguments).2 directory) ∧
    ((∃ reason, (workshopLockedScript.run workshopArguments).1.census = .error reason ∧
        reason.OfInputs) ∧
      (workshopLockedScript.run workshopArguments).2 = workshopLockedScript) ∧
    (∃ reason, (workshopLockedSpawn.run workshopArguments).1.census = .error reason ∧
        reason.OfInputs) ∧
      (workshopLockedSpawn.run workshopArguments).2 = workshopLockedSpawn := by
  refine ⟨?_, ?_, ?_⟩
  · have checked : (workshop.run workshopArguments).1.census.toOption.isSome = true := by
      decide +kernel
    cases succeeded : (workshop.run workshopArguments).1.census with
    | error reason =>
      rw [succeeded] at checked
      cases checked
    | ok census =>
      obtain ⟨-, -, left⟩ := run_footprint workshop workshopArguments
      obtain ⟨count, -, directory, has, -⟩ := left census succeeded
      exact ⟨census, directory, rfl, count, has⟩
  · obtain ⟨fails, unchanged, -⟩ := run_footprint workshopLockedScript workshopArguments
    exact ⟨fails.mpr not_loadable_workshopLockedScript,
      unchanged not_loadable_workshopLockedScript⟩
  · obtain ⟨fails, unchanged, -⟩ := run_footprint workshopLockedSpawn workshopArguments
    exact ⟨fails.mpr not_loadable_workshopLockedSpawn, unchanged not_loadable_workshopLockedSpawn⟩

end FileTree
end TileCensus
