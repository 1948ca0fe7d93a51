import TileCensus.CommandLine
import TileCensus.Run

/-!
# The program

What the program leaves behind when it ends: its code, what it prints, and what it complains
about. A run that ends well complains about the diagnostics of its census, one that ends early
about the reason, and words that are no command line are answered without a run. Standard error
holds the log that is shown and then the complaints, line by line.
-/

namespace TileCensus

/-- The end of the program. -/
structure Exit where
  code : UInt8
  /-- The lines on standard output. -/
  printed : List String
  /-- The messages on standard error after the log. -/
  complaints : List String
deriving DecidableEq, Repr

/-- The name of the program. -/
def programName : String := "tile-census"

/-- The version of the program. -/
def programVersion : String := "0.1.0"

/-- How the program is used. -/
def usageLines : List String :=
  ["Usage: " ++ programName ++ " [OPTIONS] --defs <DEFS> --vars <VARS> --instances <INSTANCES> " ++
     "<MAXTILES> <SCRIPTS>",
   "",
   "Arguments:",
   "  <MAXTILES>               Size of the tile space; every bitmap has so many entries",
   "  <SCRIPTS>                Directory of the scripts, which is walked to its bottom",
   "",
   "Options:",
   "      --defs <DEFS>            Constant records, <ignored> NAME VALUE on each line",
   "      --vars <VARS>            Variable records, <ignored> NAME on each line",
   "      --instances <INSTANCES>  Directory of the files of instance lines",
   "  -o, --output <OUTPUT>        Output directory [default: tile_stats]",
   "      --def <DEF>              Definitions file; adds three bitmaps",
   "      --rules <RULES>          Rules file, in place of the default rules",
   "  -v, --verbose                Log in detail",
   "  -h, --help                   Print help",
   "  -V, --version                Print version"]

/-- The end of the program where there is nothing to run. -/
def CommandLine.Ending.exit : Ending → Exit
  | .help => ⟨0, usageLines, []⟩
  | .version => ⟨0, [programName ++ " " ++ programVersion], []⟩
  | .refused reason =>
    ⟨2, [], ["error: " ++ reason.message, "", "For more information, try '--help'."]⟩

/-- The end of the program after a run. -/
def Run.exit (run : Run) : Exit :=
  match run.census with
  | .ok census => ⟨0, [], Diagnostic.printedLines census.diagnostics⟩
  | .error reason => ⟨1, [], ["error: " ++ reason.message]⟩

/-! ## Standard error -/

/-- A line on standard error. -/
inductive ErrorLine where
  /-- The line that an entry of the log begins on. -/
  | entry (level : LogLevel) (text : String)
  /-- Any other line. It may be one that an entry goes on with. -/
  | plain (text : String)
deriving DecidableEq, Repr

/-- The lines that a message takes: one, and one more for each line feed in it. A carriage return
is part of its line, since a message is written as it is and not read as lines of a file. -/
def messageLines (message : String) : List String :=
  (message.toList.splitOn '\n').map String.ofList

/-- The lines that an entry of a log takes. -/
def LogEntry.errorLines (entry : LogEntry) : List ErrorLine :=
  match messageLines entry.shownText with
  | [] => []
  | first :: others => .entry entry.level first :: others.map .plain

/-- The lines on standard error: those of the log, as far as it is shown, and the complaints. -/
def errorLines (shown : Log) (exit : Exit) : List ErrorLine :=
  shown.flatMap LogEntry.errorLines ++ (exit.complaints.flatMap messageLines).map .plain

end TileCensus
