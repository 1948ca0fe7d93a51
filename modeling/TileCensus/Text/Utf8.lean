/-!
# UTF-8

Bytes as text. The first byte of a character says how many bytes follow it, and which range the
next one is in; all others are continuation bytes. Where a character breaks off, the bytes it had
so far are one fault, and reading goes on at the byte that does not fit. `decodeLossy` puts a
replacement character for every fault, `decode?` refuses a text with a fault.
-/

namespace TileCensus.Text.Utf8

/-- What the first byte of a character says: the leading bits of its number, how many bytes
follow, and the range of the next one. -/
structure Lead where
  bits : Nat
  following : Nat
  lowest : Nat
  highest : Nat
deriving DecidableEq, Repr

/-- What a byte says as the first one of a character; none if it cannot be. -/
def lead? (byte : UInt8) : Option Lead :=
  let b := byte.toNat
  if b < 0x80 then some ⟨b, 0, 0x80, 0xBF⟩
  else if b < 0xC2 then none
  else if b < 0xE0 then some ⟨b - 0xC0, 1, 0x80, 0xBF⟩
  else if b = 0xE0 then some ⟨0, 2, 0xA0, 0xBF⟩
  else if b = 0xED then some ⟨0xD, 2, 0x80, 0x9F⟩
  else if b < 0xF0 then some ⟨b - 0xE0, 2, 0x80, 0xBF⟩
  else if b = 0xF0 then some ⟨0, 3, 0x90, 0xBF⟩
  else if b < 0xF4 then some ⟨b - 0xF0, 3, 0x80, 0xBF⟩
  else if b = 0xF4 then some ⟨4, 3, 0x80, 0x8F⟩
  else none

/-- Takes the bytes that follow a first one: the number of the character, or none where it breaks
off, and the bytes that are left. -/
def follow (bits : Nat) (following lowest highest : Nat) (bytes : List UInt8) :
    Option Nat × List UInt8 :=
  match following, bytes with
  | 0, bytes => (some bits, bytes)
  | _ + 1, [] => (none, [])
  | following + 1, byte :: bytes =>
    if lowest ≤ byte.toNat ∧ byte.toNat ≤ highest then
      follow (bits * 64 + (byte.toNat - 0x80)) following 0x80 0xBF bytes
    else (none, byte :: bytes)

theorem follow_length (bits following lowest highest : Nat) (bytes : List UInt8) :
    (follow bits following lowest highest bytes).2.length ≤ bytes.length := by
  fun_induction follow bits following lowest highest bytes <;> grind

/-- Takes one character, or one fault, after its first byte. -/
def takeAfter (byte : UInt8) (bytes : List UInt8) : Option Nat × List UInt8 :=
  match lead? byte with
  | some lead => follow lead.bits lead.following lead.lowest lead.highest bytes
  | none => (none, bytes)

theorem takeAfter_length (byte : UInt8) (bytes : List UInt8) :
    (takeAfter byte bytes).2.length ≤ bytes.length := by
  simp only [takeAfter]
  split
  · exact follow_length ..
  · exact Nat.le_refl _

/-- The characters that bytes stand for, with none for every fault, after those already `read`,
backwards. -/
def charsFrom (read : List (Option Char)) (bytes : List UInt8) : List (Option Char) :=
  match bytes with
  | [] => read.reverse
  | byte :: bytes =>
    let taken := takeAfter byte bytes
    charsFrom (taken.1.map Char.ofNat :: read) taken.2
termination_by bytes.length
decreasing_by exact Nat.lt_succ_of_le (takeAfter_length ..)

/-- The text of bytes, with a replacement character for every fault. -/
def decodeLossy (bytes : List UInt8) : String :=
  String.ofList ((charsFrom [] bytes).map (·.getD '\ufffd'))

/-- The text of bytes, unless there is a fault. -/
def decode? (bytes : List UInt8) : Option String :=
  ((charsFrom [] bytes).mapM id).map String.ofList

/-- The bytes of a text. -/
def encode (text : String) : List UInt8 := text.toUTF8.data.toList

theorem encode_injective : Function.Injective encode := by
  intro first second equal
  exact String.toByteArray_inj.mp (ByteArray.ext (Array.toList_inj.mp equal))

end TileCensus.Text.Utf8
