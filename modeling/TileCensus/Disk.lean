import TileCensus.Diagnostic
import TileCensus.Text.Line
import TileCensus.Text.Utf8

/-!
# Disks

What a run may ask of the files around it: the bytes of one file, whether a path leads to a file,
and the files below a directory. Nothing here can change a file. A file may be there and yet not be
read, and a directory may be there and yet not be gone through; so whether there is a file is a
question of its own.
-/

namespace TileCensus

/-! ## Paths -/

namespace Path

/-- The path of something that has a path of its own below a directory. A path that begins with a
slash is not below it. Nothing is made shorter. -/
def join (directory path : String) : String :=
  if path.toList.head? = some '/' then path
  else
    match directory.toList.getLast? with
    | none => path
    | some c => if c = '/' then directory ++ path else directory ++ "/" ++ path

/-- Whether a path begins at the root of everything. -/
def isAbsolute (path : String) : Bool := path.toList.head? = some '/'

/-- Whether a path ends in a slash, which only the path of a directory may. -/
def endsInSlash (path : String) : Bool := path.toList.getLast? = some '/'

/-- The parts between the slashes of a path. -/
def parts (path : String) : List String :=
  (Text.runsFrom (· ≠ '/') [] path.toList).map String.ofList

/-- The parts by which a path is followed. A slash at its end asks for a directory. -/
def way (path : String) : List String := parts path ++ if endsInSlash path then ["."] else []

end Path

/-! ## Failures -/

/-- The content of a file. -/
abbrev Bytes := List UInt8

/-- Why a path cannot be used. -/
inductive FileError where
  | missing
  | occupied
  | notDirectory
  | isDirectory
  /-- A file that has to be text is none. -/
  | notText
  | other (message : String)
deriving DecidableEq, Repr

/-- The reason in the words of the system. -/
def FileError.message : FileError → String
  | missing => "No such file or directory (os error 2)"
  | occupied => "File exists (os error 17)"
  | notDirectory => "Not a directory (os error 20)"
  | isDirectory => "Is a directory (os error 21)"
  | notText => "stream did not contain valid UTF-8"
  | other message => message

/-- Why the files at or below a path cannot be gone through. -/
inductive WalkError where
  /-- There is nothing at a path, or its directory cannot be listed. -/
  | listing (path : String) (reason : FileError)
  /-- A file cannot be read. -/
  | reading (path : String) (reason : FileError)
deriving DecidableEq, Repr

/-! ## Disks -/

/-- What can be read, by actions of a monad. -/
structure Disk (m : Type → Type) where
  /-- The bytes of a file. -/
  read : String → m (Except FileError Bytes)
  /-- Whether a path leads to a file, be it one that can be read or not. -/
  isFile : String → m Bool
  /-- The paths and bytes of the files at or below a path. Directories are gone through in the
  order of their entries, which is that of their names, up to the first failure. -/
  files : String → m (Except WalkError (List (String × Bytes)))

namespace Disk

variable {m : Type → Type} [Functor m]

/-- A file as text, with a replacement character wherever it is none. -/
def readLossy (disk : Disk m) (path : String) : m (Except FileError String) :=
  (·.map Text.Utf8.decodeLossy) <$> disk.read path

/-- A file that has to be text. -/
def readText (disk : Disk m) (path : String) : m (Except FileError String) :=
  (·.bind fun bytes => (Text.Utf8.decode? bytes).elim (.error .notText) .ok) <$> disk.read path

/-- The files at or below a path as texts. -/
def readSources (disk : Disk m) (path : String) : m (Except WalkError (List Source)) :=
  (·.map (·.map fun (path, bytes) => ⟨path, Text.Utf8.decodeLossy bytes⟩)) <$> disk.files path

end Disk
end TileCensus
