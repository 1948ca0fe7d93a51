import Mathlib
import TileCensus.Proofs.TreeWalks
import TileCensus.Proofs.Writing

/-!
# Runs that are repeated

A run reads all that its arguments name before it changes anything. Run once more on the tree that
it has left, it finds the same inputs, if none of the files that it has written is one that it reads
and none of its inputs is reached by way of a directory that it has made (`Apart`). So it comes to
the same census, writes the same files over themselves, and leaves the tree as it is (`run_again`).

All but the instance files must have been there for the first run to end well. An instance file may
not be there, and then it must not be there for the second run either.
-/

namespace TileCensus

open FileTree Loading

/-! ## What is written -/

/-- The files of a census in an output directory, in the order they are written. -/
def Census.writes (output : String) (census : Census) : List (String × Bytes) :=
  census.bitmaps.map (fun (stem, bitmap) => (bitmapPath output stem, bitmap.bytes)) ++
    [(reportPath output, Text.Utf8.encode (Report.ofCensus census).text)]

theorem Census.map_effect_steps (output : String) (census : Census) :
    (census.steps output).map (·.effect) =
      .makePath output :: (census.writes output).map writeEffect := by
  simp only [Census.steps, Census.writes, List.map_cons, List.map_append, List.map_map,
    List.map_nil, List.cons_append]
  rfl

/-! ## What is read -/

namespace FileTree

/-- The instance file of a rule, as it is in a tree. -/
def instanceInput (tree : FileTree) (directory : String) (rule : Instance.Rule) : InstanceInput :=
  let path := Path.join directory rule.file
  let text := (tree.read path).map Text.Utf8.decodeLossy
  ⟨rule, path, if tree.isFile path then some text else none⟩

/-- What arguments name, as it is in a tree. -/
def inputs (tree : FileTree) (arguments : Arguments) (rules : List Instance.Rule) : Inputs where
  constants := (tree.read arguments.constants).map Text.Utf8.decodeLossy
  variableNames := (tree.read arguments.variableNames).map Text.Utf8.decodeLossy
  scripts := (tree.files arguments.scripts).map
    (·.map fun (path, bytes) => ⟨path, Text.Utf8.decodeLossy bytes⟩)
  instances := rules.map (tree.instanceInput arguments.instances)
  definitions := arguments.definitions.map fun path => (tree.read path).map Text.Utf8.decodeLossy

theorem read_instance_disk (tree : FileTree) (directory : String) (rule : Instance.Rule) :
    InstanceInput.read tree.disk directory rule = pure (tree.instanceInput directory rule) := by
  have asked : InstanceInput.read tree.disk directory rule =
      let path := Path.join directory rule.file
      if tree.isFile path then
        pure ⟨rule, path, some ((tree.read path).map Text.Utf8.decodeLossy)⟩
      else pure ⟨rule, path, none⟩ := rfl
  rw [asked, instanceInput]
  dsimp only
  split
  next => rfl
  next => rfl

theorem read_disk (tree : FileTree) (arguments : Arguments) (rules : List Instance.Rule) :
    (Inputs.read tree.disk arguments rules).run = tree.inputs arguments rules := by
  have instances : rules.mapM (InstanceInput.read tree.disk arguments.instances) =
      (pure (rules.map (tree.instanceInput arguments.instances)) : Id (List InstanceInput)) := by
    rw [funext (tree.read_instance_disk arguments.instances)]
    exact List.mapM_pure
  unfold Inputs.read inputs
  rw [instances]
  cases arguments.definitions <;> rfl

theorem examine_disk (tree : FileTree) (arguments : Arguments) :
    (examine tree.disk arguments).run =
      match (readRules tree.disk arguments.rules).run with
      | .error failure => ⟨[], .error (.rules failure)⟩
      | .ok rules => (tree.inputs arguments rules).examine arguments := by
  unfold examine
  rw [Id.run_bind]
  cases (readRules tree.disk arguments.rules).run with
  | error failure => rfl
  | ok rules =>
    dsimp only
    rw [Id.run_bind, read_disk, Id.run_pure]

theorem readRules_disk (tree : FileTree) (path : String) :
    (readRules tree.disk (some path)).run =
      match (tree.read path).bind fun bytes =>
        (Text.Utf8.decode? bytes).elim (.error .notText) .ok with
      | .error reason => .error (.unreadable path reason)
      | .ok text => (Instance.rulesOfText path text).mapError .unusable :=
  rfl

end FileTree

/-! ## What is loaded -/

namespace Loading

variable {α β : Type} {told log : Log}

theorem exists_of_bind {first : Loading α} {rest : α → Loading β} {value : β}
    (loaded : (first >>= rest).run.run told = (.ok value, log)) :
    ∃ middle said, first.run.run told = (.ok middle, said) ∧
      (rest middle).run.run said = (.ok value, log) := by
  rw [ExceptT.run_bind, StateT.run_bind] at loaded
  cases did : first.run.run told with
  | mk result said =>
    rw [did] at loaded
    cases result with
    | error failure => cases loaded
    | ok middle => exact ⟨middle, said, rfl, loaded⟩

/-- What is done with every one of some things has been done with each of them. -/
theorem exists_of_mapM {act : α → Loading β} {things : List α} {values : List β}
    (loaded : (things.mapM act).run.run told = (.ok values, log)) :
    ∀ thing ∈ things, ∃ before value after, (act thing).run.run before = (.ok value, after) := by
  induction things generalizing told values log with
  | nil => nofun
  | cons thing things ih =>
    rw [List.mapM_cons] at loaded
    obtain ⟨value, _, first, loaded⟩ := exists_of_bind loaded
    obtain ⟨others, _, rest, -⟩ := exists_of_bind loaded
    exact List.forall_mem_cons.mpr ⟨⟨_, value, _, first⟩, ih rest⟩

theorem eq_ok_of_require {ε : Type} {failure : ε → LoadError} {found : Except ε α} {value : α}
    (loaded : (require failure found).run.run told = (.ok value, log)) : found = .ok value := by
  cases found with
  | error reason => cases loaded
  | ok found =>
    cases loaded
    rfl

end Loading

namespace Inputs

variable {inputs : Inputs} {arguments : Arguments}

/-- All that a run needs has been read, the instance files as far as they are there. -/
structure Complete (inputs : Inputs) : Prop where
  constants : ∃ text, inputs.constants = .ok text
  variableNames : ∃ text, inputs.variableNames = .ok text
  scripts : ∃ sources, inputs.scripts = .ok sources
  instances : ∀ input ∈ inputs.instances, ∀ found, input.text = some found →
    ∃ text, found = .ok text
  definitions : ∀ found, inputs.definitions = some found → ∃ text, found = .ok text

theorem exists_of_load_instance {input : InstanceInput} {found : Except FileError String}
    {told log : Log} {source : Option Instance.Source} (given : input.text = some found)
    (loaded : input.load.run.run told = (.ok source, log)) : ∃ text, found = .ok text := by
  unfold InstanceInput.load at loaded
  rw [given] at loaded
  obtain ⟨text, _, read, -⟩ := exists_of_bind loaded
  exact ⟨text, eq_ok_of_require read⟩

theorem complete_of_load {corpus : Corpus} {log : Log}
    (named : inputs.definitions.isSome → arguments.definitions.isSome)
    (loaded : inputs.load arguments = (.ok corpus, log)) : inputs.Complete := by
  obtain ⟨_, _, constants, loaded⟩ := exists_of_bind loaded
  obtain ⟨_, _, variableNames, loaded⟩ := exists_of_bind loaded
  obtain ⟨_, _, scripts, loaded⟩ := exists_of_bind loaded
  obtain ⟨_, _, instances, loaded⟩ := exists_of_bind loaded
  obtain ⟨_, _, definitions, -⟩ := exists_of_bind loaded
  obtain ⟨text, _, constants, -⟩ := exists_of_bind constants
  obtain ⟨names, _, variableNames, -⟩ := exists_of_bind variableNames
  obtain ⟨sources, _, scripts, -⟩ := exists_of_bind scripts
  obtain ⟨_, _, instances, -⟩ := exists_of_bind instances
  refine ⟨⟨text, eq_ok_of_require constants⟩, ⟨names, eq_ok_of_require variableNames⟩,
    ⟨sources, eq_ok_of_require scripts⟩, fun input mem found given => ?_, fun found given => ?_⟩
  · obtain ⟨_, _, _, loaded⟩ := exists_of_mapM instances input mem
    exact exists_of_load_instance given loaded
  · obtain ⟨path, path_given⟩ := Option.isSome_iff_exists.mp (named (by rw [given]; rfl))
    simp only [loadDefinitions, path_given, given] at definitions
    obtain ⟨content, _, definitions, -⟩ := exists_of_bind definitions
    exact ⟨content, eq_ok_of_require definitions⟩

end Inputs

/-! ## Reading once more -/

namespace FileTree

variable {written : Place → Prop} {before after : FileTree} {arguments : Arguments}
  {rules : List Instance.Rule}

/-- The paths of the files that a run on a tree reads, apart from the scripts. -/
def inputPaths (tree : FileTree) (arguments : Arguments) : List String :=
  [arguments.constants, arguments.variableNames] ++ arguments.definitions.toList ++
    arguments.rules.toList ++
    match (readRules tree.disk arguments.rules).run with
    | .ok rules => rules.map fun rule => Path.join arguments.instances rule.file
    | .error _ => []

/-- What has been written and made between two trees is apart from what a run reads. -/
structure Apart (written : Place → Prop) (arguments : Arguments) (before after : FileTree) :
    Prop where
  /-- No file that is read has been written. -/
  files : ∀ path ∈ before.inputPaths arguments, ∀ place, after.locate path = .ok place →
    ¬written place
  /-- No file at or below the path of the scripts has been written. -/
  scripts : ∀ place, after.locate arguments.scripts = .ok place →
    ∀ other, written other → ¬place.names <+: other.names
  /-- No file that is read is reached by way of a directory that has been made. -/
  through : ∀ path ∈ before.inputPaths arguments, ∀ place, after.PassesThrough path place →
    ¬Made before after place

theorem constants_mem_inputPaths (tree : FileTree) (arguments : Arguments) :
    arguments.constants ∈ tree.inputPaths arguments := by simp [inputPaths]

theorem variableNames_mem_inputPaths (tree : FileTree) (arguments : Arguments) :
    arguments.variableNames ∈ tree.inputPaths arguments := by simp [inputPaths]

theorem definitions_mem_inputPaths {tree : FileTree} {path : String}
    (named : arguments.definitions = some path) : path ∈ tree.inputPaths arguments := by
  simp [inputPaths, named]

theorem rules_mem_inputPaths {tree : FileTree} {path : String}
    (named : arguments.rules = some path) : path ∈ tree.inputPaths arguments := by
  simp [inputPaths, named]

theorem instance_mem_inputPaths {tree : FileTree} {rule : Instance.Rule}
    (read : (readRules tree.disk arguments.rules).run = .ok rules) (mem : rule ∈ rules) :
    Path.join arguments.instances rule.file ∈ tree.inputPaths arguments := by
  rw [inputPaths, read]
  exact List.mem_append_right _ (List.mem_map_of_mem mem)

/-- Rules that were read can be read again. -/
theorem Grows.same_rules (grows : Grows written before after)
    (apart : Apart written arguments before after)
    (was : (readRules before.disk arguments.rules).run = .ok rules) :
    (readRules after.disk arguments.rules).run = .ok rules := by
  cases named : arguments.rules with
  | none =>
    rw [named] at was
    exact was
  | some path =>
    rw [named, readRules_disk] at was
    rw [readRules_disk]
    cases read : before.read path with
    | error reason =>
      rw [read] at was
      cases was
    | ok bytes =>
      rw [read] at was
      rw [grows.read (apart.files path (rules_mem_inputPaths named)) read]
      exact was

/-- A file that has been read is the same when it is read again. -/
theorem Grows.same_text (grows : Grows written before after)
    (apart : Apart written arguments before after) {path : String}
    (input : path ∈ before.inputPaths arguments)
    (was : ∃ text, (before.read path).map Text.Utf8.decodeLossy = .ok text) :
    (after.read path).map Text.Utf8.decodeLossy =
      (before.read path).map Text.Utf8.decodeLossy := by
  cases read : before.read path with
  | error reason =>
    rw [read] at was
    obtain ⟨text, failed⟩ := was
    cases failed
  | ok bytes => rw [grows.read (apart.files path input) read]

/-- The instance file of a rule comes to the same, also where it is not there. -/
theorem Grows.same_instance (grows : Grows written before after)
    (apart : Apart written arguments before after)
    (read : (readRules before.disk arguments.rules).run = .ok rules) {rule : Instance.Rule}
    (mem : rule ∈ rules) :
    after.instanceInput arguments.instances rule =
      before.instanceInput arguments.instances rule := by
  have input := instance_mem_inputPaths read mem
  have same (place : Place) (bytes : Bytes) :
      before.HasFile (Path.join arguments.instances rule.file) place bytes ↔
        after.HasFile (Path.join arguments.instances rule.file) place bytes :=
    grows.hasFile_iff (apart.files _ input) (apart.through _ input)
  unfold instanceInput
  dsimp only
  by_cases there : before.isFile (Path.join arguments.instances rule.file) = true
  · obtain ⟨place, bytes, has⟩ := isFile_iff.mp there
    have still := (same place bytes).mp has
    rw [if_pos there, if_pos (isFile_iff.mpr ⟨place, bytes, still⟩), has.read_eq, still.read_eq,
      grows.locks]
  · have absent : ¬after.isFile (Path.join arguments.instances rule.file) = true := by
      intro there'
      obtain ⟨place, bytes, has⟩ := isFile_iff.mp there'
      exact there (isFile_iff.mpr ⟨place, bytes, (same place bytes).mpr has⟩)
    rw [if_neg there, if_neg absent]

/-- The inputs that arguments name are the same as before. -/
theorem Grows.same_inputs (grows : Grows written before after)
    (apart : Apart written arguments before after)
    (read : (readRules before.disk arguments.rules).run = .ok rules)
    (complete : (before.inputs arguments rules).Complete) :
    after.inputs arguments rules = before.inputs arguments rules := by
  unfold inputs
  congr 1
  · exact grows.same_text apart (constants_mem_inputPaths ..) complete.constants
  · exact grows.same_text apart (variableNames_mem_inputPaths ..) complete.variableNames
  · obtain ⟨sources, found⟩ := complete.scripts
    cases was : before.files arguments.scripts with
    | error reason => simp [inputs, was, Except.map] at found
    | ok files => rw [grows.files apart.scripts was]
  · exact List.map_congr_left fun rule mem => grows.same_instance apart read mem
  · cases named : arguments.definitions with
    | none => rfl
    | some path =>
      have was := complete.definitions _ (by simp only [inputs, named, Option.map_some]; rfl)
      rw [Option.map_some, Option.map_some,
        grows.same_text apart (definitions_mem_inputPaths named) was]

/-- What has led to a census leads to it once more. -/
theorem Grows.same_examination (grows : Grows written before after)
    (apart : Apart written arguments before after) {census : Census}
    (found : (examine before.disk arguments).run.census = .ok census) :
    (examine after.disk arguments).run = (examine before.disk arguments).run := by
  rw [examine_disk] at found ⊢
  rw [examine_disk]
  cases read : (readRules before.disk arguments.rules).run with
  | error failure =>
    rw [read] at found
    cases found
  | ok rules =>
    rw [read] at found
    rw [grows.same_rules apart read]
    dsimp only at found ⊢
    cases loaded : (before.inputs arguments rules).load arguments with
    | mk result log =>
      cases result with
      | error failure =>
        rw [Inputs.examine, loaded] at found
        cases found
      | ok corpus =>
        have complete := Inputs.complete_of_load (by simp [inputs]) loaded
        rw [grows.same_inputs apart read complete]

/-- A path leads to a place at or below a directory in the root of everything. -/
def LeadsInto (tree : FileTree) (path directory : String) : Prop :=
  ∃ place, tree.locate path = .ok place ∧ place.names.head? = some directory

instance (tree : FileTree) (path directory : String) : Decidable (tree.LeadsInto path directory) :=
  match located : tree.locate path with
  | .ok place =>
    decidable_of_iff (place.names.head? = some directory) (by simp [LeadsInto, located])
  | .error _ => isFalse (by simp [LeadsInto, located])

theorem LeadsInto.head {tree : FileTree} {path directory : String} {place : Place}
    (into : tree.LeadsInto path directory) (located : tree.locate path = .ok place) :
    place.names.head? = some directory := by
  obtain ⟨known, was, head⟩ := into
  rw [was] at located
  cases located
  exact head

theorem LeadsInto.mono {path directory : String} (grows : Grows written before after)
    (into : before.LeadsInto path directory) : after.LeadsInto path directory := by
  obtain ⟨place, located, head⟩ := into
  exact ⟨place, locate_mono grows.keeps located, head⟩

/-- What is written is apart from what is read if it goes to another directory, and what is read is
reached by way of directories that are there. -/
theorem Grows.apart {first second : String} (grows : Grows written before after)
    (different : first ≠ second)
    (inputs : ∀ path ∈ arguments.scripts :: before.inputPaths arguments,
      before.LeadsInto path first)
    (outputs : ∀ place, written place → place.names.head? = some second) :
    Apart written arguments before after where
  files path mem place located isWritten := by
    have head := ((inputs path (List.mem_cons_of_mem _ mem)).mono grows).head located
    rw [outputs place isWritten] at head
    exact different (Option.some.inj head).symm
  scripts place located other isWritten below := by
    have head := ((inputs _ List.mem_cons_self).mono grows).head located
    have other_head := outputs other isWritten
    obtain ⟨names, same⟩ := below
    rw [← same, List.head?_append, head] at other_head
    exact different (Option.some.inj other_head)
  through path mem place passes := by
    obtain ⟨known, was, -⟩ := inputs path (List.mem_cons_of_mem _ mem)
    exact grows.not_made was passes

end FileTree

/-! ## Running once more -/

/-- A place that a file of a census is written to. -/
def Census.WrittenAt (census : Census) (output : String) (tree : FileTree) (place : Place) :
    Prop :=
  ∃ file ∈ census.writes output, tree.locate file.1 = .ok place

namespace FileTree

variable {tree after : FileTree} {arguments : Arguments} {run : Run} {census : Census}

theorem run_eq (tree : FileTree) (arguments : Arguments) :
    tree.run arguments =
      let examination := (examine tree.disk arguments).run
      let taken := takeSteps FileTree.apply examination.log
        (examination.steps arguments.output) tree
      (examination.conclude taken.1, taken.2) := rfl

/-- A run that ends well has examined its inputs and then made its changes without a failure. -/
theorem run_eq_ok_iff (succeeded : run.census = .ok census) :
    tree.run arguments = (run, after) ↔
      (examine tree.disk arguments).run.census = .ok census ∧
        Applies tree (.makePath arguments.output ::
          (census.writes arguments.output).map writeEffect) after ∧
        run.log = (examine tree.disk arguments).run.log ++
          (census.steps arguments.output).flatMap (·.log) := by
  obtain ⟨told, result⟩ := run
  cases succeeded
  rw [← Census.map_effect_steps, ← takeSteps_eq_ok_iff, run_eq]
  generalize (examine tree.disk arguments).run = examination
  obtain ⟨log, found⟩ := examination
  constructor
  · intro ended
    cases taken : takeSteps FileTree.apply log
        (Examination.steps arguments.output ⟨log, found⟩) tree with
    | mk outcome last =>
      obtain ⟨outcome, said⟩ := outcome
      dsimp only at ended
      rw [taken] at ended
      cases outcome with
      | error failure => cases ended
      | ok done =>
        cases ended
        exact ⟨rfl, taken⟩
  · rintro ⟨rfl, taken⟩
    dsimp only [Examination.steps]
    rw [taken]
    rfl

/-- A run that ends well makes directories, and writes the files of its census. -/
theorem grows_of_run (ended : tree.run arguments = (run, after))
    (succeeded : run.census = .ok census) :
    Grows (census.WrittenAt arguments.output after) tree after := by
  obtain ⟨-, applies, -⟩ := (run_eq_ok_iff succeeded).mp ended
  refine applies.grows fun path bytes mem place located => ?_
  obtain ⟨file, listed, same⟩ := List.mem_map.mp (List.mem_of_ne_of_mem Effect.noConfusion mem)
  cases same
  exact ⟨file, listed, located⟩

/-- A run that has ended well can be repeated on the tree that it has left, if what it has written
and made is apart from what it reads. It comes to the same end, and leaves the tree as it is. -/
theorem run_again (ended : tree.run arguments = (run, after))
    (succeeded : run.census = .ok census)
    (apart : Apart (census.WrittenAt arguments.output after) arguments tree after) :
    after.run arguments = (run, after) := by
  have grows := grows_of_run ended succeeded
  obtain ⟨found, applies, log⟩ := (run_eq_ok_iff succeeded).mp ended
  rw [run_eq_ok_iff succeeded, grows.same_examination apart found]
  exact ⟨found, applies.again, log⟩

/-- Everything that arguments can name, apart from one file that the rules name, and a file that
cannot be read. The current directory is another one. -/
def workshop : FileTree :=
  let files :=
    [("/in/defs", "define TANK 2"), ("/in/vars", "var HEALTH"),
      ("/in/user.def", "tilefromtexture 3"),
      ("/in/rules", "rule = [[\"spawn\", [\"spawn\"], 1, \"spawn\"],\n" ++
        "[\"gone\", [\"actor\"], 1, \"actor\"]]"),
      ("/in/spawn", "spawn TANK"), ("/in/con/a.con", "actor TANK\nenda"), ("/desk/diary", "")]
  let tree := ["/in/con", "/desk"].foldl (fun tree path => (tree.makePath path).2) empty
  let tree := files.foldl (fun tree file => (tree.write file.1 (Text.Utf8.encode file.2)).2) tree
  (tree.lock (.ofNames ["desk", "diary"]) "Permission denied (os error 13)"
    (by decide +kernel)).enter (.ofNames ["desk"]) (by decide +kernel)

/-- Arguments for the tree, with an output directory that is not there. -/
def workshopArguments : Arguments :=
  ⟨4, "/in/con", "../in/defs", "/in/vars", "../in", "../out/tiles", some "/in/user.def",
    some "./../in/rules", false⟩

theorem run_again_workshop :
    ∃ run census after, workshop.run workshopArguments = (run, after) ∧ run.census = .ok census ∧
      Apart (census.WrittenAt workshopArguments.output after) workshopArguments workshop after ∧
      after.run workshopArguments = (run, after) := by
  have checked : ((workshop.run workshopArguments).1.census.toOption.any fun census =>
      ∀ file ∈ census.writes workshopArguments.output,
        (workshop.run workshopArguments).2.LeadsInto file.1 "out") = true := by decide +kernel
  cases ended : workshop.run workshopArguments with
  | mk run after =>
    rw [ended] at checked
    cases succeeded : run.census with
    | error failure =>
      rw [succeeded] at checked
      cases checked
    | ok census =>
      rw [succeeded] at checked
      have outputs := of_decide_eq_true checked
      have apart : Apart (census.WrittenAt workshopArguments.output after) workshopArguments
          workshop after := by
        refine (grows_of_run ended succeeded).apart (by decide : "in" ≠ "out") ?_ ?_
        · decide +kernel
        · rintro place ⟨file, mem, located⟩
          exact (outputs file mem).head located
      exact ⟨run, census, after, rfl, succeeded, apart, run_again ended succeeded apart⟩

end FileTree
end TileCensus
