import TileCensus.Action
import TileCensus.Proofs.TileSpace

/-!
# Numerals

A numeral is a word of the number grammar, however long it is: hexadecimal digits after `0x` or
`0X`, or decimal digits with an optional sign. It denotes an integer, and the reader of literals
finds this integer for the numerals and for no other word (`integer?_eq_some_iff`).

A literal is a numeral whose number fits into 64 bits. What a numeral comes to depends on the
constants exactly if its number does not fit, because the word is then looked up as a name
(`resolve?_numeral`).
-/

namespace TileCensus

/-! ## Digits -/

namespace Text

/-- A character is a digit of a base and stands for a number. Letters count in either case. -/
def IsDigit (base : Nat) (c : Char) (d : Nat) : Prop :=
  d < base ∧ (c = d.digitChar ∨ c = d.digitChar.toUpper)

instance (base : Nat) (c : Char) (d : Nat) : Decidable (IsDigit base c d) :=
  inferInstanceAs (Decidable (_ ∧ _))

variable {base d n : Nat} {c : Char} {digits : List Char} {digit? : Char → Option Nat}

theorem isDigit_of_isDigit_eq_true (found : c.isDigit = true) :
    IsDigit 10 c (c.toNat - '0'.toNat) := by
  obtain ⟨low, high⟩ : 48 ≤ c.toNat ∧ c.toNat ≤ 57 := Char.isDigit_iff_toNat.mp found
  have zero : '0'.toNat = 48 := rfl
  refine ⟨by omega, .inl (Char.toNat_inj.mp ?_)⟩
  rw [zero, Nat.toNat_digitChar_of_lt_ten (by omega)]
  omega

theorem isDigit_of_letter {a : Char} (letter : a = 'a' ∨ a = 'A') (low : a.toNat ≤ c.toNat)
    (high : c.toNat ≤ a.toNat + 5) : IsDigit 16 c (c.toNat - a.toNat + 10) := by
  rw [← Char.ofNat_toNat c]
  generalize c.toNat = k at *
  obtain rfl | rfl := letter
  · change 97 ≤ k at low
    change k ≤ 102 at high
    interval_cases k <;> decide
  · change 65 ≤ k at low
    change k ≤ 70 at high
    interval_cases k <;> decide

theorem decimalDigit?_eq_some_iff : decimalDigit? c = some d ↔ IsDigit 10 c d := by
  constructor
  · intro found
    simp only [decimalDigit?, Option.ite_none_right_eq_some, Option.some.injEq] at found
    obtain ⟨is, rfl⟩ := found
    exact isDigit_of_isDigit_eq_true is
  · rintro ⟨small, same⟩
    interval_cases d <;> obtain rfl | rfl := same <;> rfl

theorem hexDigit?_eq_some_iff : hexDigit? c = some d ↔ IsDigit 16 c d := by
  constructor
  · intro found
    rw [hexDigit?] at found
    split_ifs at found with decimal lower upper <;> cases found
    · obtain ⟨small, same⟩ := isDigit_of_isDigit_eq_true decimal
      exact ⟨by omega, same⟩
    · exact isDigit_of_letter (.inl rfl) lower.1 lower.2
    · exact isDigit_of_letter (.inr rfl) upper.1 upper.2
  · rintro ⟨small, same⟩
    interval_cases d <;> obtain rfl | rfl := same <;> rfl

/-- Digits of a base spell a number, the most significant digit first. -/
def Spells (base : Nat) (digits : List Char) (n : Nat) : Prop :=
  digits ≠ [] ∧ ∃ values, List.Forall₂ (IsDigit base) digits values ∧
    Nat.ofDigits base values.reverse = n

/-- The digits that follow a number leave it in the places above theirs. -/
theorem digitsFrom?_eq_some_iff (reads : ∀ {c d}, digit? c = some d ↔ IsDigit base c d)
    {high : Nat} :
    digitsFrom? base digit? high digits = some n ↔
      ∃ values, List.Forall₂ (IsDigit base) digits values ∧
        Nat.ofDigits base (values.reverse ++ [high]) = n := by
  induction digits generalizing high with
  | nil => simp [digitsFrom?]
  | cons c rest ih =>
    have shifted (d : Nat) (values : List Nat) :
        Nat.ofDigits base ((d :: values).reverse ++ [high]) =
          Nat.ofDigits base (values.reverse ++ [high * base + d]) := by
      simp only [List.reverse_cons, Nat.ofDigits_append, Nat.ofDigits_singleton,
        List.length_append, List.length_reverse, List.length_singleton, pow_succ]
      ring
    simp only [List.forall₂_cons_left_iff, digitsFrom?]
    constructor
    · intro found
      cases first : digit? c with
      | none => simp [first] at found
      | some d =>
        simp only [first] at found
        obtain ⟨values, spelt, value⟩ := ih.mp found
        exact ⟨d :: values, ⟨d, values, reads.mp first, spelt, rfl⟩, (shifted d values).trans value⟩
    · rintro ⟨_, ⟨d, values, first, spelt, rfl⟩, value⟩
      rw [reads.mpr first]
      exact ih.mpr ⟨values, spelt, (shifted d values).symm.trans value⟩

theorem digits?_eq_some_iff (reads : ∀ {c d}, digit? c = some d ↔ IsDigit base c d) :
    digits? base digit? digits = some n ↔ Spells base digits n := by
  simp only [digits?, Spells, Option.ite_none_left_eq_some, List.isEmpty_iff, ne_eq,
    digitsFrom?_eq_some_iff reads, Nat.ofDigits_append, Nat.ofDigits_singleton, mul_zero, add_zero]

theorem decimal?_eq_some_iff : decimal? digits = some n ↔ Spells 10 digits n :=
  digits?_eq_some_iff decimalDigit?_eq_some_iff

theorem hexadecimal?_eq_some_iff : hexadecimal? digits = some n ↔ Spells 16 digits n :=
  digits?_eq_some_iff hexDigit?_eq_some_iff

end Text

/-! ## Words that denote an integer -/

namespace Literal

open Text

/-- A word is a numeral and denotes an integer, of any size. -/
inductive Denotes : List Char → Int → Prop where
  | hexadecimal {mark : Char} {digits : List Char} {n : Nat} (marked : mark = 'x' ∨ mark = 'X')
      (spelt : Spells 16 digits n) : Denotes ('0' :: mark :: digits) n
  | unsigned {digits : List Char} {n : Nat} (spelt : Spells 10 digits n) : Denotes digits n
  | positive {digits : List Char} {n : Nat} (spelt : Spells 10 digits n) :
      Denotes ('+' :: digits) n
  | negative {digits : List Char} {n : Nat} (spelt : Spells 10 digits n) :
      Denotes ('-' :: digits) (-n)

theorem integer?_eq_some_iff {word : List Char} {n : Int} :
    integer? word = some n ↔ Denotes word n := by
  constructor
  · intro found
    unfold integer? at found
    split at found
    all_goals obtain ⟨m, read, rfl⟩ := Option.map_eq_some_iff.mp found
    · exact .hexadecimal (.inl rfl) (hexadecimal?_eq_some_iff.mp read)
    · exact .hexadecimal (.inr rfl) (hexadecimal?_eq_some_iff.mp read)
    · exact .negative (decimal?_eq_some_iff.mp read)
    · exact .positive (decimal?_eq_some_iff.mp read)
    · exact .unsigned (decimal?_eq_some_iff.mp read)
  · intro denotes
    cases denotes with
    | hexadecimal marked spelt =>
      obtain rfl | rfl := marked <;> simp [integer?, hexadecimal?_eq_some_iff.mpr spelt]
    | positive spelt => simp [integer?, decimal?_eq_some_iff.mpr spelt]
    | negative spelt => simp [integer?, decimal?_eq_some_iff.mpr spelt]
    | unsigned spelt =>
      -- a mark or a sign is no decimal digit, so only the last case of the reader applies
      have read := decimal?_eq_some_iff.mpr spelt
      unfold integer?
      split
      case h_5 => rw [read, Option.map_some, Int.ofNat_eq_natCast]
      all_goals simp [decimal?, digits?, digitsFrom?, decimalDigit?] at read

/-- A literal is a numeral whose number fits. -/
theorem value?_eq_some_iff {word : String} {value : Int64} :
    value? word = some value ↔ Denotes word.toList value.toInt := by
  rw [value?, Option.bind_eq_some_iff]
  constructor
  · rintro ⟨n, read, fits⟩
    rw [Tile.fit?_eq_some_iff.mp fits]
    exact integer?_eq_some_iff.mp read
  · intro denotes
    exact ⟨value.toInt, integer?_eq_some_iff.mpr denotes, Tile.fit?_toInt value⟩

theorem value?_of_denotes {word : String} {n : Int} (numeral : Denotes word.toList n) :
    value? word = Tile.fit? n := by
  rw [value?, integer?_eq_some_iff.mpr numeral, Option.bind_some]

end Literal

/-! ## Numerals and constants -/

open Literal Tile

/-- A word is looked up the same way whether it is read as an operand first or not. -/
theorem Operand.resolve?_ofWord (word : String) (constants : Constants) :
    (ofWord word).resolve? constants = constants.resolve? word := by
  rw [ofWord, Constants.resolve?]
  cases value? word with
  | none => rfl
  | some value => rfl

namespace Constants

theorem resolve?_of_denotes {word : String} {n : Int} (numeral : Denotes word.toList n)
    (constants : Constants) : constants.resolve? word = (fit? n).or (constants[word]?) := by
  rw [resolve?, value?_of_denotes numeral]

/-- A numeral whose number fits comes to this number whatever the constants are. One whose number
does not fit comes to what the constants have under it, so only for the numerals that fit do all
constants agree. It makes no difference whether the word is read as an operand first. -/
theorem resolve?_numeral {word : String} {n : Int} (numeral : Denotes word.toList n) :
    (Fits n → ∃ value : Int64, value.toInt = n ∧ ∀ constants : Constants,
      constants.resolve? word = some value ∧
        (Operand.ofWord word).resolve? constants = some value) ∧
    (¬Fits n → ∀ constants : Constants,
      constants.resolve? word = constants[word]? ∧
        (Operand.ofWord word).resolve? constants = constants[word]?) ∧
    ((∀ first second : Constants, first.resolve? word = second.resolve? word) ↔ Fits n) ∧
    ((∀ first second, (Operand.ofWord word).resolve? first =
      (Operand.ofWord word).resolve? second) ↔ Fits n) := by
  simp only [Operand.resolve?_ofWord, and_self, resolve?_of_denotes numeral]
  refine ⟨?_, ?_, ?_⟩
  · intro fits
    obtain ⟨value, rfl⟩ := fits_iff_exists_toInt_eq.mp fits
    refine ⟨value, rfl, fun constants => ?_⟩
    rw [fit?_toInt, Option.some_or]
  · intro wide constants
    rw [fit?_eq_none_iff.mpr wide, Option.none_or]
  · constructor
    · intro same
      by_contra wide
      -- no constants at all say nothing of the word, and a constant of this name says something
      have differ := same ∅ ((∅ : Constants).insert word 0)
      simp [fit?_eq_none_iff.mpr wide] at differ
    · intro fits first second
      obtain ⟨value, rfl⟩ := fits_iff_exists_toInt_eq.mp fits
      rw [fit?_toInt, Option.some_or, Option.some_or]

/-- `0x1F` is 31 whatever the constants are, and the first number that is too large is looked up. -/
theorem resolve?_numeral_tooLarge :
    (Denotes "0x1F".toList 31 ∧ ∀ constants : Constants, constants.resolve? "0x1F" = some 31) ∧
      Denotes "9223372036854775808".toList 9223372036854775808 ∧
        (ofText "define 9223372036854775808 11").resolve? "9223372036854775808" = some 11 := by
  have hexadecimal : Denotes "0x1F".toList 31 := integer?_eq_some_iff.mp (by decide)
  have large : Denotes "9223372036854775808".toList 9223372036854775808 :=
    integer?_eq_some_iff.mp (by decide)
  obtain ⟨fixed, -⟩ := resolve?_numeral hexadecimal
  obtain ⟨-, looksUp, -⟩ := resolve?_numeral large
  refine ⟨⟨hexadecimal, fun constants => ?_⟩, large, ?_⟩
  · obtain ⟨value, eq, resolved⟩ := fixed (by decide)
    obtain rfl : value = 31 := Int64.toInt_inj.mp eq
    exact (resolved constants).1
  · rw [(looksUp (by decide) _).1]
    cbv

/-- Not all constants agree on every numeral. -/
theorem not_forall_resolve?_eq :
    ¬∀ (word : String) (n : Int), Denotes word.toList n → ∀ first second : Constants,
      first.resolve? word = second.resolve? word ∧
        (Operand.ofWord word).resolve? first = (Operand.ofWord word).resolve? second := by
  intro same
  have large : Denotes "9223372036854775808".toList 9223372036854775808 :=
    integer?_eq_some_iff.mp (by decide)
  have unknown : (ofText "").resolve? "9223372036854775808" = none := by cbv
  have known :
      (ofText "define 9223372036854775808 11").resolve? "9223372036854775808" = some 11 := by cbv
  obtain ⟨agree, -⟩ := same _ _ large (ofText "") (ofText "define 9223372036854775808 11")
  rw [unknown, known] at agree
  cases agree

end Constants
end TileCensus
