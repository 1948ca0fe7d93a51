import TileCensus.Program

/-!
# The command line program

Reading and writing of real files, and printing. What is read, in which order things are written
and what is printed is decided by the library.
-/

namespace TileCensus

/-- The failure that an error of the system stands for. -/
def FileError.ofIOError (error : IO.Error) : FileError :=
  match error with
  | .noFileOrDirectory .. => .missing
  | .alreadyExists .. => .occupied
  | .inappropriateType _ code _ => if code = 20 then .notDirectory else .isDirectory
  | .permissionDenied .. => .other "Permission denied (os error 13)"
  | error => .other (toString error)

/-- What an action gives, or the failure it ends in. -/
def attempt {α : Type} (action : IO α) : IO (Except FileError α) := do
  try return .ok (← action) catch error => return .error (.ofIOError error)

/-- The bytes of a file. -/
def readFile (path : String) : IO Bytes := return (← IO.FS.readBinFile path).data.toList

/-- What is at a path. -/
def metadata (path : String) : IO IO.FS.Metadata := do
  if path.isEmpty then throw (.noFileOrDirectory path 2 "")
  let entry := (← IO.currentDir) / path
  entry.metadata

/-- The names of what is in a directory, in order. -/
def listDirectory (path : String) : IO (List String) := do
  let entry := (← IO.currentDir) / path
  let names := (← entry.readDir).toList.map (·.fileName)
  return names.mergeSort fun a b => a ≤ b

/-- A step of a walk, with what its failure is for the walk. -/
def walkStep {α : Type} (failure : FileError → WalkError) (action : IO α) :
    ExceptT WalkError IO α :=
  .mk ((·.mapError failure) <$> attempt action)

/-- The paths and bytes of the files at or below a path. -/
partial def walkFiles (path : String) : ExceptT WalkError IO (List (String × Bytes)) := do
  let found ← walkStep (.listing path) (metadata path)
  match found.type with
  | .dir =>
    let names ← walkStep (.listing path) (listDirectory path)
    return (← names.mapM fun name => walkFiles (Path.join path name)).flatten
  | .file => return [(path, ← walkStep (.reading path) (readFile path))]
  | _ => return []

/-- The disk of the system. -/
def systemDisk : Disk IO where
  read path := attempt (readFile path)
  isFile path := do
    match ← attempt (metadata path) with
    | .ok found => return (found.type matches .file)
    | .error _ => return false
  files path := (walkFiles path).run

/-- Changes the disk of the system. -/
def applyToSystem (effect : Effect) : IO (Except FileError Unit) :=
  attempt <|
    match effect with
    | .makePath path => if path.isEmpty then return else IO.FS.createDirAll path
    | .write path bytes => IO.FS.writeBinFile path (ByteArray.mk bytes.toArray)

/-- Prints a line on standard error. -/
def ErrorLine.print : ErrorLine → IO Unit
  | entry level text => IO.eprintln (level.label ++ " " ++ text)
  | plain text => IO.eprintln text

/-- Prints the log, as far as it is shown, and the end of the program. Gives its code. -/
def Exit.report (shown : Log) (exit : Exit) : IO UInt32 := do
  exit.printed.forM fun line => IO.println line
  (errorLines shown exit).forM ErrorLine.print
  return exit.code.toUInt32

/-- Runs the program. -/
def runProgram (words : List String) : IO UInt32 := do
  match CommandLine.parse words with
  | .error ending => ending.exit.report []
  | .ok arguments =>
    let run ← runOn systemDisk applyToSystem arguments
    let threshold := LogLevel.threshold? (← IO.getEnv "TILE_CENSUS_LOG") arguments.verbose
    run.exit.report (run.log.shown threshold)

end TileCensus

def main (words : List String) : IO UInt32 := TileCensus.runProgram words
