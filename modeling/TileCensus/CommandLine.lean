import TileCensus.Inputs
import TileCensus.Text.Digits

/-!
# Command lines

How the words of a command line say what a run is asked to do. A word that begins with a dash
names options: `--name VALUE` or `--name=VALUE`, or one letter after a single dash, where letters
of switches may be put together and a value may follow the last letter at once. All other words
are values: of the option before them if it still waits for one, else of the next positional
argument. A word of two dashes makes all words after it positional.

A value that is a word of its own is looked at only when the next option or argument begins, or
at the end. So of two mistakes the earlier one is told, unless the later one is a word that
belongs nowhere.
-/

namespace TileCensus.CommandLine

/-! ## What can be said -/

/-- The arguments that have a value. -/
inductive Setting where
  | maxTiles
  | scripts
  | constants
  | variableNames
  | instances
  | output
  | definitions
  | rules
deriving DecidableEq, Repr

namespace Setting

/-- The arguments that are given by their position, in order. -/
def positional : List Setting := [.maxTiles, .scripts]

/-- The arguments that have to be given. -/
def required : List Setting := [.maxTiles, .scripts, .constants, .variableNames, .instances]

/-- How an argument is named in messages. -/
def label : Setting → String
  | maxTiles => "<MAXTILES>"
  | scripts => "<SCRIPTS>"
  | constants => "--defs <DEFS>"
  | variableNames => "--vars <VARS>"
  | instances => "--instances <INSTANCES>"
  | output => "--output <OUTPUT>"
  | definitions => "--def <DEF>"
  | rules => "--rules <RULES>"

end Setting

/-- The options that have no value. -/
inductive Switch where
  | verbose
  | help
  | version
deriving DecidableEq, Repr

/-- How a switch is named in messages. -/
def Switch.label : Switch → String
  | verbose => "--verbose"
  | help => "--help"
  | version => "--version"

/-- An option. -/
inductive Choice where
  | setting (setting : Setting)
  | switch (switch : Switch)
deriving DecidableEq, Repr

/-- The option with a long name. -/
def Choice.ofName? (name : String) : Option Choice :=
  match name with
  | "defs" => some (.setting .constants)
  | "vars" => some (.setting .variableNames)
  | "instances" => some (.setting .instances)
  | "output" => some (.setting .output)
  | "def" => some (.setting .definitions)
  | "rules" => some (.setting .rules)
  | "verbose" => some (.switch .verbose)
  | "help" => some (.switch .help)
  | "version" => some (.switch .version)
  | _ => none

/-- The option with a letter. -/
def Choice.ofLetter? (letter : Char) : Option Choice :=
  match letter with
  | 'o' => some (.setting .output)
  | 'v' => some (.switch .verbose)
  | 'h' => some (.switch .help)
  | 'V' => some (.switch .version)
  | _ => none

/-! ## What can be wrong -/

/-- Why words are no command line. -/
inductive UsageError where
  /-- A word belongs nowhere. -/
  | unknownWord (word : String)
  /-- An option has no value. -/
  | missingValue (setting : Setting)
  /-- A path is empty. -/
  | emptyPath (setting : Setting)
  /-- A number of tiles is no number of 64 bits. -/
  | notANumber (value : String)
  /-- An argument is given twice. -/
  | repeated (label : String)
  /-- A switch has a value. -/
  | unwantedValue (switch : Switch)
  /-- Arguments that have to be given are not. -/
  | missingSettings (settings : List Setting)
deriving DecidableEq, Repr

/-- The reason in words. -/
def UsageError.message : UsageError → String
  | unknownWord word => s!"unexpected argument '{word}' found"
  | missingValue setting | emptyPath setting =>
    let label := setting.label
    s!"a value is required for '{label}' but none was supplied"
  | notANumber value => s!"invalid value '{value}' for '<MAXTILES>'"
  | repeated label => s!"the argument '{label}' cannot be used multiple times"
  | unwantedValue switch =>
    let label := switch.label
    s!"unexpected value for '{label}' found; no more were expected"
  | missingSettings settings =>
    "the following required arguments were not provided: " ++
      String.intercalate ", " (settings.map Setting.label)

/-- Why there is nothing to run. -/
inductive Ending where
  /-- The words ask for help. -/
  | help
  /-- The words ask for the version. -/
  | version
  | refused (reason : UsageError)
deriving DecidableEq, Repr

/-! ## Values -/

/-- A number of tiles, which fits 64 bits and may have a plus sign. -/
def number? (value : String) : Option Nat :=
  let digits :=
    match value.toList with
    | '+' :: digits => digits
    | digits => digits
  (Text.decimal? digits).filter (· < 0x10000000000000000)

/-- Why an argument cannot have a value. -/
def Setting.fault? (setting : Setting) (value : String) : Option UsageError :=
  match setting with
  | .maxTiles => if (number? value).isNone then some (.notANumber value) else none
  | setting => if value.isEmpty then some (.emptyPath setting) else none

/-! ## Reading words -/

/-- An argument that has begun and has not yet been looked at, with its value if that is there. -/
structure Pending where
  setting : Setting
  value : Option String
deriving DecidableEq, Repr

/-- What the words so far have said. -/
structure Draft where
  given : List (Setting × String)
  verbose : Bool
  pending : Option Pending
  /-- The positional arguments that are still to come. -/
  awaited : List Setting
deriving DecidableEq, Repr

namespace Draft

/-- Nothing is said yet. -/
def initial : Draft := ⟨[], false, none, Setting.positional⟩

/-- The value that is given to an argument. -/
def value? (draft : Draft) (setting : Setting) : Option String := draft.given.lookup setting

/-- Gives an argument its value. -/
def give (draft : Draft) (setting : Setting) (value : String) : Except Ending Draft :=
  if (draft.value? setting).isSome then .error (.refused (.repeated setting.label))
  else
    match setting.fault? value with
    | some reason => .error (.refused reason)
    | none => .ok { draft with given := (setting, value) :: draft.given }

/-- Looks at the argument that is pending. -/
def settle (draft : Draft) : Except Ending Draft :=
  match draft.pending with
  | none => .ok draft
  | some ⟨setting, none⟩ => .error (.refused (.missingValue setting))
  | some ⟨setting, some value⟩ => { draft with pending := none }.give setting value

/-- Begins an option with a value, which may follow at once or be the next word. -/
def begin (draft : Draft) (setting : Setting) (attached : Option String) : Except Ending Draft := do
  let draft ← draft.settle
  match attached with
  | some value => draft.give setting value
  | none => return { draft with pending := some ⟨setting, none⟩ }

/-- Turns a switch on. -/
def turnOn (draft : Draft) (switch : Switch) : Except Ending Draft := do
  let draft ← draft.settle
  match switch with
  | .help => throw .help
  | .version => throw .version
  | .verbose =>
    if draft.verbose then throw (.refused (.repeated switch.label))
    else return { draft with verbose := true }

/-- Reads a word as the next positional argument. -/
def readPositional (draft : Draft) (word : String) : Except Ending Draft :=
  match draft.awaited with
  | [] => .error (.refused (.unknownWord word))
  | setting :: awaited => do
    let draft ← draft.settle
    return { draft with pending := some ⟨setting, some word⟩, awaited }

/-- Reads a word that begins with no dash. -/
def readValue (draft : Draft) (word : String) : Except Ending Draft :=
  match draft.pending with
  | some ⟨setting, none⟩ => .ok { draft with pending := some ⟨setting, some word⟩ }
  | _ => draft.readPositional word

/-- Reads the letters after a single dash. -/
def readLetters (draft : Draft) (letters : List Char) : Except Ending Draft :=
  match letters with
  | [] => .ok draft
  | letter :: rest =>
    match Choice.ofLetter? letter with
    | none => .error (.refused (.unknownWord ("-" ++ letter.toString)))
    | some (.switch switch) => do (← draft.turnOn switch).readLetters rest
    | some (.setting setting) =>
      match rest with
      | [] => draft.begin setting none
      | '=' :: value => draft.begin setting (some (String.ofList value))
      | value => draft.begin setting (some (String.ofList value))

/-- Reads what follows two dashes. -/
def readName (draft : Draft) (word : List Char) : Except Ending Draft :=
  let name := String.ofList (word.takeWhile (· ≠ '='))
  let attached :=
    match word.dropWhile (· ≠ '=') with
    | [] => none
    | _ :: value => some (String.ofList value)
  match Choice.ofName? name, attached with
  | none, _ => .error (.refused (.unknownWord ("--" ++ name)))
  | some (.setting setting), attached => draft.begin setting attached
  | some (.switch switch), some _ => .error (.refused (.unwantedValue switch))
  | some (.switch switch), none => draft.turnOn switch

/-- Reads one word. -/
def read (draft : Draft) (word : String) : Except Ending Draft :=
  match word.toList with
  | '-' :: '-' :: name => draft.readName name
  | '-' :: letter :: letters => draft.readLetters (letter :: letters)
  | _ => draft.readValue word

/-- Reads words up to two dashes, and those after them as positional arguments. -/
def readAll (draft : Draft) : List String → Except Ending Draft
  | [] => draft.settle
  | word :: words =>
    if word = "--" then do (← words.foldlM readPositional draft).settle
    else do (← draft.read word).readAll words

/-- The arguments that a draft gives. -/
def arguments (draft : Draft) : Except Ending Arguments :=
  let arguments? : Option Arguments := do
    return {
      maxTiles := ← number? (← draft.value? .maxTiles)
      scripts := ← draft.value? .scripts
      constants := ← draft.value? .constants
      variableNames := ← draft.value? .variableNames
      instances := ← draft.value? .instances
      output := (draft.value? .output).getD "tile_stats"
      definitions := draft.value? .definitions
      rules := draft.value? .rules
      verbose := draft.verbose }
  match arguments? with
  | some arguments => .ok arguments
  | none =>
    let absent := Setting.required.filter fun setting => (draft.value? setting).isNone
    .error (.refused (.missingSettings absent))

end Draft

/-- The arguments that the words of a command line give. -/
def parse (words : List String) : Except Ending Arguments := do
  (← Draft.initial.readAll words).arguments

end TileCensus.CommandLine
