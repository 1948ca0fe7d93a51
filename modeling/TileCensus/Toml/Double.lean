/-!
# Doubles

The numbers that 64-bit floats can hold, exactly: a finite one is a whole number of the smallest
ones, which are `2 ^ -1074`. A decimal number becomes the nearest of them, of two equally near ones
the even one. A double is written with the fewest digits that only it is nearest to, of two such
numbers the one nearer to it, of two equally near ones the upper one, and always without an
exponent.
-/

namespace TileCensus.Toml

/-- A 64-bit float. -/
inductive Double where
  /-- `significand * 2 ^ (exponent - 1074)`, with its sign. -/
  | finite (isNegative : Bool) (significand exponent : Nat)
  | infinite (isNegative : Bool)
  | notANumber
deriving DecidableEq, Repr

namespace Double

/-! ## The nearest double -/

/-- A quotient rounded to a whole number, half to even. -/
def roundedDiv (n d : Nat) : Nat :=
  let q := n / d
  let twice := 2 * (n % d)
  if twice < d ∨ twice = d ∧ q % 2 = 0 then q else q + 1

/-- The number of twos to leave out of `n / d` so that at most 53 bits remain in front of the
point. -/
def excess (n d : Nat) : Nat :=
  let least := n.log2 - d.log2 - 53
  if n / (d <<< least) < 1 <<< 53 then least else least + 1

/-- The double nearest to `n / d` smallest ones. -/
def ofQuotient (isNegative : Bool) (n d : Nat) : Double :=
  let exponent := excess n d
  let significand := roundedDiv n (d <<< exponent)
  let (significand, exponent) :=
    if significand = 1 <<< 53 then (1 <<< 52, exponent + 1) else (significand, exponent)
  if 2045 < exponent then .infinite isNegative else .finite isNegative significand exponent

/-- The double nearest to `mantissa * 10 ^ exponent`, where the mantissa has at most `digits`
digits. -/
def ofDecimal (isNegative : Bool) (mantissa digits : Nat) (exponent : Int) : Double :=
  if mantissa = 0 ∨ exponent + digits < -330 then .finite isNegative 0 0
  else if 310 < exponent then .infinite isNegative
  else
    let smallest := mantissa <<< 1074
    match exponent with
    | .ofNat e => ofQuotient isNegative (smallest * Nat.pow 10 e) 1
    | .negSucc e => ofQuotient isNegative smallest (Nat.pow 10 (e + 1))

/-! ## The fewest digits -/

/-- A number in the decimal system: `mantissa * 10 ^ (exponent - 324)`. -/
structure Decimal where
  mantissa : Nat
  exponent : Nat
deriving DecidableEq, Repr

/-- The multiple of `10 ^ (power - 324)` that is nearest to a double, if no other double is nearer
to it. Everything is counted in parts of `2 ^ -1076 * 10 ^ -324`: quarters of the smallest doubles
and multiples of the power are whole numbers of them. -/
def onGrid? (significand exponent power : Nat) : Option Decimal :=
  let step := Nat.pow 10 power <<< 1076
  let scaled := fun (quarters : Nat) => (quarters <<< exponent) * Nat.pow 10 324
  let isLeast := significand = 1 <<< 52 ∧ 0 < exponent
  let low := scaled (4 * significand - if isLeast then 1 else 2)
  let high := scaled (4 * significand + 2)
  let value := scaled (4 * significand)
  let fits := fun (n : Nat) =>
    0 < n && (low < n * step && n * step < high ||
      significand % 2 = 0 && (n * step = low || n * step = high))
  let below := value / step
  if fits (below + 1) && (!fits below || 2 * value ≥ (2 * below + 1) * step) then
    some ⟨below + 1, power⟩
  else if fits below then some ⟨below, power⟩
  else none

/-- The shortest decimal number for a double that is not zero, on a grid of a power of ten up to
`power`. -/
def shortest (significand exponent : Nat) : Nat → Decimal
  | 0 => ⟨0, 0⟩
  | power + 1 => (onGrid? significand exponent power).getD (shortest significand exponent power)

/-! ## Writing -/

/-- A decimal number without an exponent; a whole number has no point. -/
def Decimal.text (decimal : Decimal) : String :=
  let digits := Nat.toDigits 10 decimal.mantissa
  if 324 ≤ decimal.exponent then
    String.ofList (digits ++ List.replicate (decimal.exponent - 324) '0')
  else
    let places := 324 - decimal.exponent
    let padded := List.replicate (places + 1 - digits.length) '0' ++ digits
    let whole := padded.length - places
    String.ofList (padded.take whole ++ '.' :: padded.drop whole)

/-- The double in words; a whole number has a place after the point. -/
def text : Double → String
  | .notANumber => "NaN"
  | .infinite isNegative => if isNegative then "-inf" else "inf"
  | .finite isNegative significand exponent =>
    let decimal := if significand = 0 then ⟨0, 324⟩ else shortest significand exponent 634
    let written := decimal.text
    let signed := if isNegative then "-" ++ written else written
    if 324 ≤ decimal.exponent then signed ++ ".0" else signed

end Double
end TileCensus.Toml
