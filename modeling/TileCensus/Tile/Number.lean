/-!
# Tile numbers

Tile numbers, frame counts and the values of constants are signed 64-bit integers. Sums and
products are taken over the integers and then fitted back, so nothing wraps: `fit?_eq_some_iff`
says that a fitted number stands for exactly the integer it was made from.
-/

namespace TileCensus.Tile

/-- The 64-bit number for an integer, when it has one. -/
def fit? (n : Int) : Option Int64 :=
  if -0x8000000000000000 ≤ n ∧ n < 0x8000000000000000 then some (Int64.ofInt n) else none

theorem fit?_eq_some_iff {n : Int} {v : Int64} : fit? n = some v ↔ v.toInt = n := by
  constructor
  · intro h
    simp only [fit?] at h
    split at h
    next bounds =>
      cases h
      rw [Int64.toInt_ofInt_of_le (by omega) (by omega)]
    next => cases h
  · rintro rfl
    have low := v.minValue_le_toInt
    have high := v.toInt_lt
    simp only [fit?]
    rw [if_pos (by constructor <;> simp_all), Int64.ofInt_toInt]

theorem fit?_toInt (v : Int64) : fit? v.toInt = some v := fit?_eq_some_iff.mpr rfl

theorem fit?_eq_none_iff {n : Int} :
    fit? n = none ↔ ¬(-0x8000000000000000 ≤ n ∧ n < 0x8000000000000000) := by
  simp [fit?]

/-- The sum, when it fits. -/
def add? (a b : Int64) : Option Int64 := fit? (a.toInt + b.toInt)

/-- The product, when it fits. -/
def mul? (a b : Int64) : Option Int64 := fit? (a.toInt * b.toInt)

end TileCensus.Tile
