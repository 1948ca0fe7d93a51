import TileCensus.FileTree
import TileCensus.Inputs
import TileCensus.Report
import TileCensus.Survey.Log

/-!
# Runs

A run first examines: it reads the rules and the inputs and takes the census, and changes nothing.
Only if that has led to a census is anything written: the output directory is made, then one file
for every bitmap and the report are written into it, one after the other up to the first failure.
-/

namespace TileCensus

/-! ## Failures -/

/-- Why a run has ended early. -/
inductive RunError where
  | rules (failure : RulesFailure)
  | loading (failure : LoadError)
  | creating (path : String) (reason : FileError)
  | writingBitmaps (reason : FileError)
  | writingReport (reason : FileError)
deriving DecidableEq, Repr

/-- The failure in words. -/
def RunError.message : RunError → String
  | rules failure => failure.message
  | loading failure => "Loading inputs: " ++ failure.message
  | creating path reason => "Creating " ++ path ++ ": " ++ reason.message
  | writingBitmaps reason => "Writing bitmap files: " ++ reason.message
  | writingReport reason => "Writing report: " ++ reason.message

/-! ## Examining -/

/-- What a run has found out before it changes anything. -/
structure Examination where
  log : Log
  census : Except RunError Census

/-- The examination of inputs. -/
def Inputs.examine (inputs : Inputs) (arguments : Arguments) : Examination :=
  match inputs.load arguments with
  | (.error failure, log) => ⟨log, .error (.loading failure)⟩
  | (.ok corpus, log) =>
    let survey := corpus.survey
    let census := survey.census corpus.maxTiles log.diagnostics
    ⟨log ++ survey.log (corpus.scripts.map (·.path)) census, .ok census⟩

/-- Reads what arguments name, and examines it. -/
def examine {m : Type → Type} [Monad m] (disk : Disk m) (arguments : Arguments) :
    m Examination := do
  match ← readRules disk arguments.rules with
  | .error failure => return ⟨[], .error (.rules failure)⟩
  | .ok rules => return (← Inputs.read disk arguments rules).examine arguments

/-! ## Writing -/

/-- A change of a disk. -/
inductive Effect where
  | makePath (path : String)
  | write (path : String) (bytes : Bytes)
deriving DecidableEq, Repr

/-- A change with what it is told as, and what its failure is for the run. -/
structure Step where
  effect : Effect
  failure : FileError → RunError
  log : Log

/-- The file of a bitmap, in the directory that is written to. -/
def bitmapPath (output stem : String) : String := Path.join output (stem ++ ".bin")

/-- The file of the report. -/
def reportPath (output : String) : String := Path.join output "report.json"

/-- Writes a bitmap. -/
def Tile.Bitmap.step (output stem : String) (bitmap : Tile.Bitmap) : Step :=
  let path := bitmapPath output stem
  let count := bitmap.count
  ⟨.write path bitmap.bytes, .writingBitmaps, [.info s!"Wrote {path} ({count} marked)"]⟩

/-- Writes a report. -/
def Report.step (output : String) (report : Report) : Step :=
  let path := reportPath output
  ⟨.write path (Text.Utf8.encode report.text), .writingReport, [.info s!"Wrote {path}"]⟩

/-- Writes a census. -/
def Census.steps (output : String) (census : Census) : List Step :=
  ⟨.makePath output, .creating output, []⟩ ::
    census.bitmaps.map (fun (stem, bitmap) => bitmap.step output stem) ++
    [(Report.ofCensus census).step output]

/-- What is written after an examination. -/
def Examination.steps (output : String) (examination : Examination) : List Step :=
  match examination.census with
  | .ok census => census.steps output
  | .error _ => []

/-- Takes steps up to the first failure. Gives what is told about those that were taken, after
what was `told` before. -/
def takeSteps {m : Type → Type} [Monad m] (apply : Effect → m (Except FileError Unit))
    (told : Log) : List Step → m (Except RunError Unit × Log)
  | [] => return (.ok (), told)
  | step :: steps => do
    match ← apply step.effect with
    | .ok () => takeSteps apply (told ++ step.log) steps
    | .error reason => return (.error (step.failure reason), told)

/-! ## Running -/

/-- A run that has ended. -/
structure Run where
  log : Log
  census : Except RunError Census

/-- The run that an examination and the steps after it make. -/
def Examination.conclude (examination : Examination) (taken : Except RunError Unit × Log) :
    Run where
  log := taken.2
  census := taken.1.bind fun () => examination.census

/-- Runs on a disk. -/
def runOn {m : Type → Type} [Monad m] (disk : Disk m)
    (apply : Effect → m (Except FileError Unit)) (arguments : Arguments) : m Run := do
  let examination ← examine disk arguments
  return examination.conclude
    (← takeSteps apply examination.log (examination.steps arguments.output))

/-! ## Running on a file tree -/

namespace FileTree

/-- Applies a change to a tree. -/
def apply (effect : Effect) : StateM FileTree (Except FileError Unit) := fun tree =>
  match effect with
  | .makePath path => tree.makePath path
  | .write path bytes => tree.write path bytes

/-- A run on a tree, and the tree after it. -/
def run (tree : FileTree) (arguments : Arguments) : Run × FileTree :=
  let examination := examine tree.disk arguments
  let (taken, tree) :=
    (takeSteps apply examination.log (examination.steps arguments.output)).run tree
  (examination.conclude taken, tree)

end FileTree
end TileCensus
