import TileCensus.Text.Digits
import TileCensus.Toml.Reader

/-!
# TOML moments

Dates, times of the day, and both together with or without their distance from universal time. The
second 60 is there for leap seconds.
-/

namespace TileCensus.Toml

open Reader

/-- Takes a number of so many digits. -/
def fixedDigits (count : Nat) : Reader Nat :=
  (exactly Char.isDigit count).checked fun taken =>
    match Text.decimal? taken with
    | some n => .ok n
    | none => .error {}

/-- Takes a number of two digits that is in a range. -/
def twoDigits (low high : Nat) : Reader Nat :=
  (fixedDigits 2).checked fun n =>
    if low ≤ n ∧ n ≤ high then .ok n else .error (.because .outOfRange)

/-! ## Dates -/

/-- How many days a month has. -/
def daysInMonth (year month : Nat) : Nat :=
  if month = 2 then if year % 4 = 0 ∧ (year % 100 ≠ 0 ∨ year % 400 = 0) then 29 else 28
  else if month ∈ [4, 6, 9, 11] then 30
  else 31

/-- Takes a date. -/
def date : Reader Unit := do
  let year ← fixedDigits 4
  char '-'
  commit do
    let month ← twoDigits 1 12
    char '-'
    let _ ← (twoDigits 1 31).checked fun day =>
      if day ≤ daysInMonth year month then .ok day else .error (.because .outOfRange)

/-! ## Times -/

/-- Takes a time of the day. -/
def time : Reader Unit := do
  let _ ← twoDigits 0 23
  char ':'
  commit do
    let _ ← twoDigits 0 59
    char ':'
    let _ ← twoDigits 0 60
    let _ ← opt do
      char '.'
      someRun Char.isDigit

/-- Takes a distance from universal time. -/
def zone : Reader Unit := named "time offset" do
  match ← one (· ∈ ['Z', 'z']) <|> one (· ∈ ['+', '-']) with
  | 'Z' | 'z' => return
  | _ => commit do
    let _ ← twoDigits 0 23
    char ':'
    let _ ← twoDigits 0 59

/-- Takes the time after a date. -/
def timeOfDate : Reader Unit := do
  let _ ← one (· ∈ ['T', 't', ' '])
  time
  let _ ← opt zone

/-- Takes a moment. -/
def moment : Reader Unit :=
  named "date-time" (do
    date
    let _ ← opt timeOfDate) <|> named "time" time

end TileCensus.Toml
