import TileCensus.Text.Digits
import TileCensus.Tile.Number
import TileCensus.Toml.Double
import TileCensus.Toml.Reader

/-!
# TOML numbers

Integers in four bases, and floats. Single underscores may stand between digits. An integer has to
fit 64 bits, and a float must not be so large that it would round to infinity, though a negative
one may.
-/

namespace TileCensus.Toml

open Reader

/-! ## Digits -/

/-- Takes a decimal digit. -/
def digit : Reader Nat := oneOf Text.decimalDigit?

/-- Takes the digits that follow a first one. -/
def moreDigits (digit : Reader Nat) : Reader (List Nat) :=
  many (digit <|> do
    char '_'
    digit.commit.expecting (.thing "digit"))

/-- Takes grouped digits. -/
def groupedDigits (digit : Reader Nat) : Reader (List Nat) := do
  return (← digit) :: (← moreDigits digit)

/-- The number that digits in a base make. -/
def ofDigits (base : Nat) (digits : List Nat) : Nat := digits.foldl (fun n d => n * base + d) 0

/-- A number in decimal digits, with its sign. -/
structure Whole where
  isNegative : Bool
  digits : List Nat
deriving DecidableEq, Repr

/-- The value of a whole number. -/
def Whole.value (whole : Whole) : Int :=
  let n := Int.ofNat (ofDigits 10 whole.digits)
  if whole.isNegative then -n else n

/-- Takes a sign, which is mostly missing. -/
def sign : Reader (Option Char) := opt (one fun c => c = '+' || c = '-')

/-- Takes a whole number that does not begin with a needless zero. -/
def whole : Reader Whole := named "integer" do
  let sign ← sign
  let digits ← (do
      let first ← oneOf fun c => (Text.decimalDigit? c).filter (0 < ·)
      return first :: (← moreDigits digit)) <|> List.singleton <$> digit
  return ⟨sign = some '-', digits⟩

/-! ## Integers -/

/-- An integer that fits 64 bits. -/
def fitted (value : Int) : Except Fault Int64 :=
  match Tile.fit? value with
  | some fit => .ok fit
  | none => .error (.because (if value < 0 then .tooSmall else .tooLarge))

/-- Takes an integer in a base other than ten. -/
def basedInteger (label : String) (mark : Char) (base : Nat) (digit? : Char → Option Nat) :
    Reader Int64 :=
  let digits := named label do
    word ['0', mark]
    (groupedDigits (oneOf digit?)).commit
  (digits.checked fun digits => fitted (Int.ofNat (ofDigits base digits))).commit

/-- A digit below a base. -/
def digitBelow? (base : Nat) (c : Char) : Option Nat := (Text.decimalDigit? c).filter (· < base)

/-- Takes an integer. -/
def integer : Reader Int64 := do
  match ← look (opt (do return (← anyChar, ← anyChar))) with
  | some ('0', 'x') => basedInteger "hexadecimal integer" 'x' 16 Text.hexDigit?
  | some ('0', 'o') => basedInteger "octal integer" 'o' 8 (digitBelow? 8)
  | some ('0', 'b') => basedInteger "binary integer" 'b' 2 (digitBelow? 2)
  | _ => whole.checkedAs true fun whole => fitted whole.value

/-! ## Floats -/

/-- Takes decimal places. -/
def places : Reader (List Nat) := do
  char '.'
  (groupedDigits digit).commit.expecting (.thing "digit")

/-- Takes an exponent. -/
def exponent : Reader Int := do
  let _ ← one fun c => c = 'e' || c = 'E'
  let sign ← sign
  let digits ← (groupedDigits digit).commit
  return Whole.value ⟨sign = some '-', digits⟩

/-- A decimal number: its whole part, its decimal places and its exponent. -/
structure Scientific where
  whole : Whole
  places : List Nat
  exponent : Int
deriving DecidableEq, Repr

/-- Takes a decimal number that is not whole as it is written. -/
def scientific : Reader Scientific := do
  let whole ← whole
  (do return ⟨whole, [], ← exponent⟩) <|> do
    let places ← places
    return ⟨whole, places, (← opt exponent).getD 0⟩

/-- The double nearest to a decimal number. -/
def Scientific.nearest (number : Scientific) : Double :=
  let digits := number.whole.digits ++ number.places
  .ofDecimal number.whole.isNegative (ofDigits 10 digits) digits.length
    (number.exponent - number.places.length)

/-- A float that is not as large as infinity. -/
def bounded (number : Scientific) : Except Fault Double :=
  match number.nearest with
  | .infinite false => .error {}
  | nearest => .ok nearest

/-- Takes infinity. -/
def infinity : Reader Double := do
  word ['i', 'n', 'f']
  return .infinite false

/-- Takes what stands for no number. -/
def notANumber : Reader Double := do
  word ['n', 'a', 'n']
  return .notANumber

/-- Takes a float that is no decimal number. -/
def special : Reader Double := do
  let sign ← sign
  match ← infinity <|> notANumber with
  | .infinite _ => return .infinite (sign = some '-')
  | other => return other

/-- Takes a float. -/
def float : Reader Double :=
  named "floating-point number" (scientific.checkedAs true bounded <|> special)

end TileCensus.Toml
