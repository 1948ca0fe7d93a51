import TileCensus.Disk
import TileCensus.Instance.RuleFile
import TileCensus.Log
import TileCensus.Survey

/-!
# Inputs

Everything that the arguments of a run name is read first, as it is found, and only then looked
at: the rules, because they name the files of instance lines, and then the inputs. What can be
made of inputs depends on nothing else (`Inputs.load`). A file of instance lines that is not there
is reported; one that is there and cannot be read ends the run, as anything else does that cannot be
read.
-/

namespace TileCensus

/-! ## Arguments -/

/-- The arguments of a run. -/
structure Arguments where
  /-- The number of tiles in the tile space. -/
  maxTiles : Nat
  /-- The path of the directory with the scripts. -/
  scripts : String
  /-- The path of the constant records. -/
  constants : String
  /-- The path of the variable records. -/
  variableNames : String
  /-- The path of the directory with the instance lines. -/
  instances : String
  /-- The path of the directory that is written to. -/
  output : String
  /-- The path of the definitions file. -/
  definitions : Option String
  /-- The path of the rules file. -/
  rules : Option String
  /-- Whether to log in detail. -/
  verbose : Bool
deriving DecidableEq, Repr

/-! ## Failures -/

/-- Why there are no rules. -/
inductive RulesFailure where
  | unreadable (path : String) (reason : FileError)
  | unusable (reason : Instance.RulesError)
deriving DecidableEq, Repr

namespace RulesFailure

/-- The failure in words, without what caused it. -/
def headline : RulesFailure → String
  | unreadable path _ => "cannot read rules file " ++ path
  | unusable reason => reason.headline

/-- The failure in words. -/
def message (failure : RulesFailure) : String :=
  match failure with
  | unreadable _ reason => failure.headline ++ ": " ++ reason.message
  | unusable reason => reason.message

end RulesFailure

/-- Why the inputs of a run cannot be loaded. -/
inductive LoadError where
  | reading (path : String) (reason : FileError)
  /-- The walk through a directory has failed at a path. -/
  | walking (directory path : String) (reason : FileError)
deriving DecidableEq, Repr

namespace LoadError

/-- The failure that the walk through a directory has ended in. -/
def ofWalk (directory : String) : WalkError → LoadError
  | .listing path reason => walking directory path reason
  | .reading path reason => reading path reason

/-- The failure in words. -/
def message : LoadError → String
  | reading path reason => "Reading " ++ path ++ ": " ++ reason.message
  | walking directory path reason =>
    let cause := reason.message
    s!"Walking {directory}: IO error for operation on {path}: {cause}: {cause}"

end LoadError

/-! ## Rules -/

/-- The rules in a file, or the default ones where no file is named. -/
def readRules {m : Type → Type} [Monad m] (disk : Disk m) (path : Option String) :
    m (Except RulesFailure (List Instance.Rule)) := do
  match path with
  | none => return .ok Instance.Rule.defaults
  | some path =>
    return match ← disk.readText path with
      | .error reason => .error (.unreadable path reason)
      | .ok text => (Instance.rulesOfText path text).mapError .unusable

/-! ## Inputs -/

/-- A file of instance lines that a rule names, as it was found. -/
structure InstanceInput where
  rule : Instance.Rule
  path : String
  /-- What was read, if there is a file. -/
  text : Option (Except FileError String)

/-- What the arguments of a run name, as it was found. -/
structure Inputs where
  constants : Except FileError String
  variableNames : Except FileError String
  scripts : Except WalkError (List Source)
  instances : List InstanceInput
  definitions : Option (Except FileError String)

/-- Reads the file of instance lines that a rule names. -/
def InstanceInput.read {m : Type → Type} [Monad m] (disk : Disk m) (directory : String)
    (rule : Instance.Rule) : m InstanceInput := do
  let path := Path.join directory rule.file
  if ← disk.isFile path then return ⟨rule, path, some (← disk.readLossy path)⟩
  else return ⟨rule, path, none⟩

/-- Reads what arguments name. -/
def Inputs.read {m : Type → Type} [Monad m] (disk : Disk m) (arguments : Arguments)
    (rules : List Instance.Rule) : m Inputs := do
  let constants ← disk.readLossy arguments.constants
  let variableNames ← disk.readLossy arguments.variableNames
  let scripts ← disk.readSources arguments.scripts
  let instances ← rules.mapM (InstanceInput.read disk arguments.instances)
  let definitions ← arguments.definitions.mapM disk.readLossy
  return { constants, variableNames, scripts, instances, definitions }

/-! ## Loading -/

/-- A part of a run that tells what it does and may fail. -/
abbrev Loading := ExceptT LoadError (StateM Log)

namespace Loading

/-- Tells something. -/
def tell (log : Log) : Loading Unit := modify (· ++ log)

/-- What was read, or the failure to read it. -/
def require {ε α : Type} (failure : ε → LoadError) : Except ε α → Loading α
  | .ok value => return value
  | .error reason => throw (failure reason)

end Loading

open Loading

/-- The source of instance lines that a rule names, if there is a file. A file that is not there is
reported. -/
def InstanceInput.load (input : InstanceInput) : Loading (Option Instance.Source) := do
  let path := input.path
  match input.text with
  | some text => return some ⟨input.rule, path, ← require (.reading path) text⟩
  | none =>
    let stem := input.rule.category.stem
    tell [.found ⟨.missingInput, none, s!"{path} not found; {stem} rule skipped"⟩]
    return none

namespace Inputs

/-- The constants among inputs. -/
def loadConstants (inputs : Inputs) (path : String) : Loading Constants := do
  let text ← require (.reading path) inputs.constants
  let constants := Constants.ofText text
  let count := constants.size
  tell ((Constants.problems path text).map .found)
  if constants.isEmpty then
    tell [.note .warn s!"No constants in {path}; only literal tile numbers will resolve"]
  else tell [.info s!"Loaded {count} constants from {path}"]
  return constants

/-- The names of variables among inputs. -/
def loadVariables (inputs : Inputs) (path : String) : Loading NameSet := do
  let text ← require (.reading path) inputs.variableNames
  let names := Variables.ofText text
  let count := names.size
  tell ((Variables.problems path text).map .found)
  tell [.info s!"Loaded {count} variable names from {path}"]
  return names

/-- The scripts among inputs. -/
def loadScripts (inputs : Inputs) (path : String) : Loading (List Source) := do
  let scripts ← require (.ofWalk path) inputs.scripts
  let count := scripts.length
  tell [.info s!"Found {count} script files under {path}"]
  return scripts

/-- The sources of instance lines among inputs, rule by rule. -/
def loadInstances (inputs : Inputs) : Loading (List Instance.Source) := do
  return (← inputs.instances.mapM InstanceInput.load).filterMap id

/-- The definitions among inputs. -/
def loadDefinitions (inputs : Inputs) (path : Option String) : Loading (Option Source) := do
  match path, inputs.definitions with
  | some path, some text => return some ⟨path, ← require (.reading path) text⟩
  | _, _ => return none

/-- The corpus that inputs make, with what is told on the way. -/
def load (inputs : Inputs) (arguments : Arguments) : Except LoadError Corpus × Log :=
  let loading : Loading Corpus := do
    let constants ← inputs.loadConstants arguments.constants
    let variableNames ← inputs.loadVariables arguments.variableNames
    let scripts ← inputs.loadScripts arguments.scripts
    let instances ← inputs.loadInstances
    let definitions ← inputs.loadDefinitions arguments.definitions
    return { maxTiles := arguments.maxTiles, constants, variableNames, scripts, instances,
             definitions }
  loading.run.run []

end Inputs
end TileCensus
