import TileCensus.Proofs.Numerals

/-!
# Literals and their texts

A literal is a way to begin a numeral (`Lead`) with one digit or more behind it, in the base that
belongs to this beginning. It is read as the number that the digits spell, which has to be one of
the 64-bit numbers; leading zeros make no difference, and no other word is read at all
(`value?_exact`).

A number is printed as a numeral that denotes it (`denotes_toString`). So an operand that is printed
is read back as it was, unless it is a name that is written like a literal, and reading makes no
operands of this kind (`ofWord_text_exact`).
-/

namespace TileCensus

/-! ## Spelling -/

namespace Text

variable {base n d : Nat} {digits : List Char} {c : Char}

/-- A digit behind a number shifts it by one place. -/
theorem Spells.concat (spelt : Spells base digits n) (last : IsDigit base c d) :
    Spells base (digits ++ [c]) (n * base + d) := by
  obtain ⟨-, values, listed, value⟩ := spelt
  refine ⟨List.append_ne_nil_of_right_ne_nil digits (List.cons_ne_nil c []), values ++ [d],
    List.rel_append listed (.cons last .nil), ?_⟩
  rw [List.reverse_append, List.reverse_singleton, List.singleton_append, Nat.ofDigits_cons, value]
  ring

/-- Zeros in front of a number leave it as it is. -/
theorem Spells.zeros (spelt : Spells base digits n) (positive : 0 < base) (count : Nat) :
    Spells base (List.replicate count '0' ++ digits) n := by
  induction count with
  | zero => exact spelt
  | succ count ih =>
    obtain ⟨-, values, listed, value⟩ := ih
    rw [List.replicate_succ, List.cons_append]
    refine ⟨List.cons_ne_nil _ _, 0 :: values, .cons ⟨positive, .inl rfl⟩ listed, ?_⟩
    rw [List.reverse_cons, Nat.ofDigits_append_zero, value]

/-- The decimal digits of a number spell it. -/
theorem spells_toDigits (n : Nat) : Spells 10 (Nat.toDigits 10 n) n := by
  induction n using Nat.strongRecOn with
  | ind n ih =>
    have last : IsDigit 10 (n % 10).digitChar (n % 10) := ⟨Nat.mod_lt n (by decide), .inl rfl⟩
    rw [Nat.toDigits_eq_if (by decide)]
    split
    next small =>
      rw [Nat.mod_eq_of_lt small] at last
      exact ⟨List.cons_ne_nil _ _, [n], .cons last .nil, Nat.ofDigits_singleton⟩
    next large =>
      have shifted := (ih (n / 10) (by omega)).concat last
      rwa [Nat.div_add_mod' n 10] at shifted

end Text

namespace Literal

open Text

/-! ## Ways to begin a numeral -/

/-- What a numeral begins with: `0x` or `0X`, a sign, or nothing. -/
inductive Lead where
  | hexadecimal (capital : Bool)
  | unsigned
  | positive
  | negative
deriving DecidableEq

namespace Lead

/-- What stands in front of the digits. -/
def text : Lead → List Char
  | hexadecimal false => ['0', 'x']
  | hexadecimal true => ['0', 'X']
  | unsigned => []
  | positive => ['+']
  | negative => ['-']

/-- The base of the digits. -/
def base : Lead → Nat
  | hexadecimal _ => 16
  | unsigned | positive | negative => 10

/-- The number that the digits make together with their sign. -/
def signed : Lead → Nat → Int
  | hexadecimal _, n | unsigned, n | positive, n => n
  | negative, n => -n

theorem base_pos (lead : Lead) : 0 < lead.base := by cases lead <;> exact Nat.succ_pos _

end Lead

variable {word : List Char} {digits : List Char} {n : Nat}

theorem denotes_iff_exists_lead {m : Int} :
    Denotes word m ↔ ∃ (lead : Lead) (digits : List Char) (n : Nat),
      word = lead.text ++ digits ∧ Spells lead.base digits n ∧ m = lead.signed n := by
  constructor
  · intro denotes
    cases denotes with
    | @hexadecimal _ digits n marked spelt =>
      obtain rfl | rfl := marked
      · exact ⟨.hexadecimal false, digits, n, rfl, spelt, rfl⟩
      · exact ⟨.hexadecimal true, digits, n, rfl, spelt, rfl⟩
    | unsigned spelt => exact ⟨.unsigned, _, _, rfl, spelt, rfl⟩
    | positive spelt => exact ⟨.positive, _, _, rfl, spelt, rfl⟩
    | negative spelt => exact ⟨.negative, _, _, rfl, spelt, rfl⟩
  · intro begun
    obtain ⟨lead, digits, n, rfl, spelt, rfl⟩ := begun
    cases lead with
    | hexadecimal capital =>
      cases capital with
      | false => exact .hexadecimal (.inl rfl) spelt
      | true => exact .hexadecimal (.inr rfl) spelt
    | unsigned => exact .unsigned spelt
    | positive => exact .positive spelt
    | negative => exact .negative spelt

/-! ## What a literal is -/

theorem fits_iff {m : Int} : Tile.Fits m ↔ -2 ^ 63 ≤ m ∧ m ≤ 2 ^ 63 - 1 := by
  rw [Tile.Fits]
  omega

/-- A word that is begun and goes on with digits has the number that they spell as its value, if
this is one of 64 bits. -/
theorem value?_lead {lead : Lead} (spelt : Spells lead.base digits n) :
    value? (String.ofList (lead.text ++ digits)) = Tile.fit? (lead.signed n) := by
  refine value?_of_denotes ?_
  rw [String.toList_ofList]
  exact denotes_iff_exists_lead.mpr ⟨lead, digits, n, rfl, spelt, rfl⟩

theorem value?_eq_some_iff_exists_lead {word : String} {value : Int64} :
    value? word = some value ↔ ∃ (lead : Lead) (digits : List Char) (n : Nat),
      word.toList = lead.text ++ digits ∧ Spells lead.base digits n ∧
        -2 ^ 63 ≤ lead.signed n ∧ lead.signed n ≤ 2 ^ 63 - 1 ∧ value.toInt = lead.signed n := by
  have fits : Tile.Fits value.toInt := Tile.fits_iff_exists_toInt_eq.mpr ⟨value, rfl⟩
  rw [value?_eq_some_iff, denotes_iff_exists_lead]
  constructor
  · intro written
    obtain ⟨lead, digits, n, split, spelt, same⟩ := written
    rw [same, fits_iff] at fits
    exact ⟨lead, digits, n, split, spelt, fits.1, fits.2, same⟩
  · intro written
    obtain ⟨lead, digits, n, split, spelt, -, -, same⟩ := written
    exact ⟨lead, digits, n, split, spelt, same⟩

theorem value?_eq_none_iff_forall_lead {word : String} :
    value? word = none ↔ ∀ (lead : Lead) (digits : List Char) (n : Nat),
      word.toList = lead.text ++ digits → Spells lead.base digits n →
        lead.signed n < -2 ^ 63 ∨ 2 ^ 63 - 1 < lead.signed n := by
  constructor
  · intro unread lead digits n split spelt
    have wide := value?_lead spelt
    rw [← split, String.ofList_toList, unread, eq_comm, Tile.fit?_eq_none_iff] at wide
    omega
  · intro wide
    rw [Option.eq_none_iff_forall_ne_some]
    intro value read
    obtain ⟨lead, digits, n, split, spelt, low, high, -⟩ :=
      value?_eq_some_iff_exists_lead.mp read
    have outside := wide lead digits n split spelt
    omega

/-- A beginning alone is no literal. -/
theorem value?_text_eq_none (lead : Lead) : value? (String.ofList lead.text) = none := by
  rcases lead with (_ | _) | _ | _ | _ <;> rfl

/-- A sign in front of `0x` makes no literal. -/
theorem value?_signed_hexadecimal_eq_none {sign : Lead}
    (signs : sign = .positive ∨ sign = .negative) (capital : Bool) (digits : List Char) :
    value? (String.ofList (sign.text ++ ((Lead.hexadecimal capital).text ++ digits))) = none := by
  have unread : decimal? ((Lead.hexadecimal capital).text ++ digits) = none := by
    cases capital <;> simp [Lead.text, decimal?, digits?, digitsFrom?, decimalDigit?]
  generalize (Lead.hexadecimal capital).text ++ digits = marked at unread
  obtain rfl | rfl := signs
  · simp [value?, Lead.text, integer?, unread]
  · simp [value?, Lead.text, integer?, unread]

/-- A word is a literal exactly if it begins in one of the five ways, goes on with one digit or more
of the base that belongs to this, and spells a number between the smallest and the largest of 64
bits, which is then its value. All other words are none. Zeros in front of the digits change
nothing, at least one digit has to be there, and `0x` takes no sign. -/
theorem value?_exact :
    (∀ (word : String) (value : Int64), value? word = some value ↔
      ∃ (lead : Lead) (digits : List Char) (n : Nat),
        word.toList = lead.text ++ digits ∧ Spells lead.base digits n ∧
          -2 ^ 63 ≤ lead.signed n ∧ lead.signed n ≤ 2 ^ 63 - 1 ∧ value.toInt = lead.signed n) ∧
    (∀ word : String, value? word = none ↔
      ∀ (lead : Lead) (digits : List Char) (n : Nat),
        word.toList = lead.text ++ digits → Spells lead.base digits n →
          lead.signed n < -2 ^ 63 ∨ 2 ^ 63 - 1 < lead.signed n) ∧
    (∀ (lead : Lead) (digits : List Char) (n count : Nat), Spells lead.base digits n →
      value? (String.ofList (lead.text ++ (List.replicate count '0' ++ digits))) =
        value? (String.ofList (lead.text ++ digits))) ∧
    (∀ lead : Lead, value? (String.ofList lead.text) = none) ∧
    ∀ sign : Lead, sign = .positive ∨ sign = .negative → ∀ (capital : Bool) (digits : List Char),
      value? (String.ofList (sign.text ++ ((Lead.hexadecimal capital).text ++ digits))) = none := by
  refine ⟨fun _ _ => value?_eq_some_iff_exists_lead, fun _ => value?_eq_none_iff_forall_lead, ?_,
    value?_text_eq_none, fun _ => value?_signed_hexadecimal_eq_none⟩
  intro lead digits n count spelt
  rw [value?_lead (spelt.zeros lead.base_pos count), value?_lead spelt]

/-- The largest number in hexadecimal and the smallest one in decimal are literals, with any number
of zeros, and the numbers next to them are none. -/
theorem value?_exact_limits :
    (Spells 16 "7fffFFFFffffFFFF".toList (2 ^ 63 - 1) ∧
      ∀ count, value? (String.ofList ((Lead.hexadecimal true).text ++
        (List.replicate count '0' ++ "7fffFFFFffffFFFF".toList))) = some Int64.maxValue) ∧
    (Spells 10 "9223372036854775808".toList (2 ^ 63) ∧
      ∀ count, value? (String.ofList (Lead.negative.text ++
        (List.replicate count '0' ++ "9223372036854775808".toList))) = some Int64.minValue) ∧
    value? "0x8000000000000000" = none ∧ value? "-9223372036854775809" = none ∧
    value? "+0x10" = none := by
  obtain ⟨read, unread, zeros, -, unsigned⟩ := value?_exact
  have largest : Spells 16 "7fffFFFFffffFFFF".toList (2 ^ 63 - 1) :=
    hexadecimal?_eq_some_iff.mp (by decide)
  have smallest : Spells 10 "9223372036854775808".toList (2 ^ 63) :=
    decimal?_eq_some_iff.mp (by decide)
  refine ⟨⟨largest, fun count => ?_⟩, ⟨smallest, fun count => ?_⟩, by decide, by decide, ?_⟩
  · rw [zeros (.hexadecimal true) _ _ count largest]
    exact (read _ _).mpr ⟨.hexadecimal true, _, _, String.toList_ofList, largest, by decide,
      by decide, by decide⟩
  · rw [zeros .negative _ _ count smallest]
    exact (read _ _).mpr ⟨.negative, _, _, String.toList_ofList, smallest, by decide, by decide,
      by decide⟩
  · exact unsigned .positive (.inl rfl) false "10".toList

end Literal

/-! ## Operands -/

namespace Literal

/-- A printed number is a numeral, and the number is the one that it denotes. -/
theorem denotes_toString (n : Int) : Denotes (toString n).toList n := by
  cases n with
  | ofNat n =>
    have digits : (toString (Int.ofNat n)).toList = Nat.toDigits 10 n := Nat.toList_repr
    rw [digits]
    exact .unsigned (Text.spells_toDigits n)
  | negSucc n =>
    have digits : (toString (Int.negSucc n)).toList = '-' :: Nat.toDigits 10 (n + 1) := by
      simp [Int.repr]
    rw [digits]
    exact .negative (Text.spells_toDigits (n + 1))

end Literal

namespace Operand

/-- An operand that is printed is read back, unless it is a name that is written like a literal. -/
theorem ofWord_text_eq_self_iff {operand : Operand} :
    ofWord operand.text = operand ↔
      ∀ name, operand = symbol name → Literal.isLiteral name = false := by
  cases operand with
  | literal value =>
    have read : Literal.value? (toString value.toInt) = some value :=
      Literal.value?_eq_some_iff.mpr (Literal.denotes_toString value.toInt)
    rw [text, ofWord_eq_literal_iff]
    exact iff_of_true read nofun
  | symbol name =>
    rw [text, ofWord_eq_symbol_iff]
    simp [Literal.isLiteral]

/-- Printing and reading undo each other on the numbers and on every operand that is read, and of
all operands just the names that are written like a literal are not read back. When the word of an
operand is looked up, before or after it is read, makes no difference to what it comes to. -/
theorem ofWord_text_exact :
    (∀ value : Int64, ofWord (literal value).text = literal value) ∧
      (∀ word : String, ofWord (ofWord word).text = ofWord word) ∧
      (∀ operand : Operand, ofWord operand.text = operand ↔
        ∀ name, operand = symbol name → Literal.isLiteral name = false) ∧
      ∀ (word : String) (constants : Constants),
        (ofWord word).resolve? constants = constants.resolve? word := by
  refine ⟨?_, ?_, fun operand => ofWord_text_eq_self_iff, resolve?_ofWord⟩
  · intro value
    exact ofWord_text_eq_self_iff.mpr nofun
  · intro word
    refine ofWord_text_eq_self_iff.mpr fun name read => ?_
    obtain ⟨unread, rfl⟩ := ofWord_eq_symbol_iff.mp read
    rw [Literal.isLiteral, unread]
    rfl

end Operand
end TileCensus
