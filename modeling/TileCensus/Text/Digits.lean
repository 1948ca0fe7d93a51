/-!
# Digits

Numbers written in a base: the value of a run of digits, of any length, and the digits of a byte.
-/

namespace TileCensus.Text

/-- The value of a decimal digit. -/
def decimalDigit? (c : Char) : Option Nat :=
  if c.isDigit then some (c.toNat - '0'.toNat) else none

/-- The value of a hexadecimal digit of either case. -/
def hexDigit? (c : Char) : Option Nat :=
  if c.isDigit then some (c.toNat - '0'.toNat)
  else if 'a' ≤ c ∧ c ≤ 'f' then some (c.toNat - 'a'.toNat + 10)
  else if 'A' ≤ c ∧ c ≤ 'F' then some (c.toNat - 'A'.toNat + 10)
  else none

/-- The value of digits that follow a number `high` in a base. -/
def digitsFrom? (base : Nat) (digit? : Char → Option Nat) (high : Nat) : List Char → Option Nat
  | [] => some high
  | c :: rest =>
    match digit? c with
    | some d => digitsFrom? base digit? (high * base + d) rest
    | none => none

/-- The value of one digit or more in a base. -/
def digits? (base : Nat) (digit? : Char → Option Nat) (digits : List Char) : Option Nat :=
  if digits.isEmpty then none else digitsFrom? base digit? 0 digits

/-- The value of one decimal digit or more. -/
def decimal? (digits : List Char) : Option Nat := digits? 10 decimalDigit? digits

/-- The value of one hexadecimal digit or more. -/
def hexadecimal? (digits : List Char) : Option Nat := digits? 16 hexDigit? digits

/-- The two hexadecimal digits of a number below 256, in lower case. -/
def hexPair (n : Nat) : List Char := [Nat.digitChar (n / 16), Nat.digitChar (n % 16)]

theorem isDigit_of_mem_toString {n : Nat} {c : Char} (mem : c ∈ (toString n).toList) :
    c.isDigit = true := by
  have digits : c ∈ Nat.toDigits 10 n := by simpa using mem
  exact Nat.isDigit_of_mem_toDigits (by omega) (Nat.le_refl 10) digits

theorem hexDigit?_digitChar {d : Nat} (h : d < 16) : hexDigit? (Nat.digitChar d) = some d := by
  decide +revert

theorem hexadecimal?_hexPair {n : Nat} (h : n < 256) : hexadecimal? (hexPair n) = some n := by
  have high : n / 16 < 16 := Nat.div_lt_of_lt_mul h
  have low : n % 16 < 16 := Nat.mod_lt n (by decide)
  simp [hexadecimal?, hexPair, digits?, digitsFrom?, hexDigit?_digitChar high,
    hexDigit?_digitChar low]
  omega

end TileCensus.Text
