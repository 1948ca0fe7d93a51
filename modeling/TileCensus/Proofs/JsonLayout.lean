import Mathlib
import TileCensus.Json

/-!
# Layouts read back

A JSON value can be read back from its layout: two values with the same layout are the same
(`layout_injective`).

The proof says more of a part of a layout: it can be told from whatever follows it (`IsTold`), as
long as no digit follows, which would go on with a number. Numbers end where their digits do, quoted
texts where a quote is not escaped. In a block each item is followed by a comma or by the end of its
line, so a block can be told if its items can; and values are put together from these.
-/

namespace TileCensus.Json

open Text

/-! ## Parts and what follows them -/

/-- What follows does not go on with a number. -/
def EndsNumber (rest : List Char) : Prop := ∀ c ∈ rest.head?, ¬c.isDigit = true

/-- What is written for a value is written for no other, whatever follows it. -/
def IsTold {α : Type} (write : α → List Char) (value : α) : Prop :=
  ∀ (other : α) (rest rest' : List Char), EndsNumber rest → EndsNumber rest' →
    write value ++ rest = write other ++ rest' → value = other ∧ rest = rest'

theorem endsNumber_cons {c : Char} (other : ¬c.isDigit = true) (rest : List Char) :
    EndsNumber (c :: rest) := by
  intro d head
  obtain rfl := Option.some_inj.mp head
  exact other

/-! ## Numbers -/

theorem takeWhile_number {n : Nat} {rest : List Char} (ends : EndsNumber rest) :
    ((toString n).toList ++ rest).takeWhile Char.isDigit = (toString n).toList := by
  rw [List.takeWhile_append_of_pos fun c => Text.isDigit_of_mem_toString]
  cases rest with
  | nil => simp
  | cons c rest => rw [List.takeWhile_cons_of_neg (ends c rfl), List.append_nil]

theorem isTold_number (n : Nat) : IsTold (fun n : Nat => (toString n).toList) n := by
  intro m rest rest' ends ends' equal
  have digits := congrArg (List.takeWhile Char.isDigit) equal
  rw [takeWhile_number ends, takeWhile_number ends'] at digits
  obtain rfl : n = m := Nat.repr_injective (String.toList_inj.mp digits)
  exact ⟨rfl, List.append_cancel_left equal⟩

/-! ## Texts -/

/-- Takes the character off that an escaped text goes on with after a backslash. -/
def unescapeAfter : List Char → Option (Char × List Char)
  | 'b' :: rest => some ('\x08', rest)
  | 'f' :: rest => some ('\x0c', rest)
  | 'n' :: rest => some ('\n', rest)
  | 'r' :: rest => some ('\r', rest)
  | 't' :: rest => some ('\t', rest)
  | 'u' :: '0' :: '0' :: high :: low :: rest =>
    (hexadecimal? [high, low]).map fun n => (Char.ofNat n, rest)
  | c :: rest => some (c, rest)
  | [] => none

/-- Takes the character off that an escaped text begins with. -/
def unescape : List Char → Option (Char × List Char)
  | '\\' :: rest => unescapeAfter rest
  | c :: rest => some (c, rest)
  | [] => none

theorem unescape_escape (c : Char) (rest : List Char) :
    unescape (escape c ++ rest) = some (c, rest) := by
  unfold escape
  split
  case h_8 =>
    split
    next small =>
      have written : hexadecimal? (hexPair c.toNat) = some c.toNat :=
        hexadecimal?_hexPair (by omega)
      change (hexadecimal? (hexPair c.toNat)).map (fun n => (Char.ofNat n, rest)) = _
      rw [written, Option.map_some, Char.ofNat_toNat]
    next => simp [unescape]
  all_goals rfl

/-- An escaped text ends at the first quote that is not escaped. -/
theorem escaped_told {first second rest rest' : List Char}
    (equal : first.flatMap escape ++ '"' :: rest = second.flatMap escape ++ '"' :: rest') :
    first = second ∧ rest = rest' := by
  -- a quote does not begin a character
  have apart {c : Char} {text tail tail' : List Char} :
      '"' :: tail ≠ (c :: text).flatMap escape ++ tail' := by
    intro same
    have read := unescape_escape c (text.flatMap escape ++ tail')
    rw [← List.append_assoc, ← List.flatMap_cons, ← same] at read
    obtain ⟨rfl, -⟩ := Prod.mk.inj (Option.some_inj.mp read)
    have heads := congrArg List.head? same
    simp [escape] at heads
  induction first generalizing second with
  | nil =>
    cases second with
    | nil => exact ⟨rfl, (List.cons.inj equal).2⟩
    | cons d second => exact absurd equal apart
  | cons c first ih =>
    cases second with
    | nil => exact absurd equal.symm apart
    | cons d second =>
      have read := congrArg unescape equal
      simp only [List.flatMap_cons, List.append_assoc, unescape_escape, Option.some_inj,
        Prod.mk.injEq] at read
      obtain ⟨rfl, later⟩ := read
      obtain ⟨rfl, same⟩ := ih later
      exact ⟨rfl, same⟩

theorem isTold_quote (value : String) : IsTold (fun value => (quote value).toList) value := by
  intro other rest rest' _ _ equal
  simp only [quote, String.toList_append, String.toList_ofList, List.append_assoc] at equal
  obtain ⟨same, later⟩ := escaped_told (List.append_cancel_left equal)
  exact ⟨String.toList_inj.mp same, later⟩

/-! ## Blocks -/

/-- What follows an item of a block that has further items. -/
def followChars (closing : Char) (level : Nat) : List (List Char) → List Char
  | [] => '\n' :: ((indentation level).toList ++ [closing])
  | item :: items =>
    ',' :: '\n' :: ((indentation (level + 1)).toList ++ item ++ followChars closing level items)

/-- What follows the opening of a block. -/
def blockChars (closing : Char) (level : Nat) : List (List Char) → List Char
  | [] => [closing]
  | item :: items =>
    '\n' :: ((indentation (level + 1)).toList ++ item ++ followChars closing level items)

theorem toList_block (opening closing : Char) (level : Nat) (items : List String) :
    (block (String.singleton opening) (String.singleton closing) level items).toList =
      opening :: blockChars closing level (items.map String.toList) := by
  cases items with
  | nil => simp [block, blockChars]
  | cons item items =>
    have lines : (String.intercalate ",\n"
        ((item :: items).map (indentation (level + 1) ++ ·))).toList ++
          '\n' :: ((indentation level).toList ++ [closing]) =
        (indentation (level + 1)).toList ++ item.toList ++
          followChars closing level (items.map String.toList) := by
      induction items generalizing item with
      | nil => simp [followChars]
      | cons next items ih =>
        rw [List.map_cons, List.map_cons, String.intercalate_cons_cons, ← List.map_cons]
        simp only [String.toList_append, List.append_assoc, List.map_cons] at ih ⊢
        rw [ih next]
        simp [followChars]
    simp only [block, List.isEmpty_cons, Bool.false_eq_true, if_false, String.toList_append,
      String.toList_singleton, blockChars, List.map_cons] at lines ⊢
    simp [← lines]

theorem endsNumber_followChars (closing : Char) (level : Nat) (items : List (List Char))
    (rest : List Char) : EndsNumber (followChars closing level items ++ rest) := by
  cases items with
  | nil => exact endsNumber_cons (by decide) _
  | cons item items => exact endsNumber_cons (by decide) _

section Blocks

variable {α : Type} {write : α → List Char} {items : List α} {closing : Char}

theorem isTold_followChars (level : Nat) (told : ∀ item ∈ items, IsTold write item) :
    IsTold (fun items => followChars closing level (items.map write)) items := by
  induction items with
  | nil =>
    intro others rest rest' _ _ equal
    cases others with
    | nil => exact ⟨rfl, List.append_cancel_left equal⟩
    | cons other others => cases (List.cons.inj equal).1
  | cons item items ih =>
    obtain ⟨first, told⟩ := List.forall_mem_cons.mp told
    intro others rest rest' ends ends' equal
    cases others with
    | nil => cases (List.cons.inj equal).1
    | cons other others =>
      simp only [List.map_cons, followChars, List.cons_append, List.append_assoc, List.cons.injEq,
        true_and, List.append_cancel_left_eq] at equal
      obtain ⟨rfl, later⟩ := first other _ _ (endsNumber_followChars _ _ _ _)
        (endsNumber_followChars _ _ _ _) equal
      obtain ⟨rfl, same⟩ := ih told others rest rest' ends ends' later
      exact ⟨rfl, same⟩

/-- A block can be told if its items can. -/
theorem isTold_blockChars (visible : closing ≠ '\n') (level : Nat)
    (told : ∀ item ∈ items, IsTold write item) :
    IsTold (fun items => blockChars closing level (items.map write)) items := by
  intro others rest rest' ends ends' equal
  cases items with
  | nil =>
    cases others with
    | nil => exact ⟨rfl, List.append_cancel_left equal⟩
    | cons other others => exact absurd (List.cons.inj equal).1 visible
  | cons item items =>
    cases others with
    | nil => exact absurd (List.cons.inj equal).1.symm visible
    | cons other others =>
      -- a block goes on as it would after an item before its first
      exact isTold_followChars level told _ rest rest' ends ends' (congrArg (',' :: ·) equal)

end Blocks

/-! ## Values -/

theorem layoutItems_eq (level : Nat) (laid : List String) (items : List Json) :
    layoutItems level laid items = laid.reverse ++ items.map (layout level) := by
  induction items generalizing laid with
  | nil => simp [layoutItems]
  | cons item items ih => simp [layoutItems, ih]

/-- A member of an object as it is laid out. -/
def layoutMember (level : Nat) (member : String × Json) : String :=
  quote member.1 ++ ": " ++ layout level member.2

theorem layoutMembers_eq (level : Nat) (laid : List String) (members : List (String × Json)) :
    layoutMembers level laid members = laid.reverse ++ members.map (layoutMember level) := by
  induction members generalizing laid with
  | nil => simp [layoutMembers]
  | cons member members ih =>
    obtain ⟨key, value⟩ := member
    simp [layoutMembers, ih, layoutMember]

/-- The layout of a value as characters. -/
def chars (level : Nat) (value : Json) : List Char := (layout level value).toList

theorem chars_array (level : Nat) (items : List Json) :
    chars level (array items) =
      '[' :: blockChars ']' level (items.map (chars (level + 1))) := by
  rw [chars, layout, layoutItems_eq, List.reverse_nil, List.nil_append]
  exact (toList_block '[' ']' level _).trans (by rw [List.map_map]; rfl)

theorem chars_object (level : Nat) (members : List (String × Json)) :
    chars level (object members) =
      '\x7b' :: blockChars '\x7d' level
        (members.map fun member => (layoutMember (level + 1) member).toList) := by
  rw [chars, layout, layoutMembers_eq, List.reverse_nil, List.nil_append]
  exact (toList_block '\x7b' '\x7d' level _).trans (by rw [List.map_map]; rfl)

/-- The character that all values of a form begin with, other than numbers. -/
def opening : Json → Option Char
  | number _ => none
  | text _ => some '"'
  | array _ => some '['
  | object _ => some '\x7b'

theorem head?_chars (level : Nat) (value : Json) (rest : List Char) :
    (chars level value ++ rest).head?.filter (fun c => !c.isDigit) = value.opening := by
  cases value with
  | number n =>
    cases digits : (toString n).toList with
    | nil => simp at digits
    | cons digit others =>
      have isDigit : digit.isDigit = true := Text.isDigit_of_mem_toString (digits ▸ List.mem_cons_self)
      change ((toString n).toList ++ rest).head?.filter _ = none
      simp only [digits, List.cons_append, List.head?_cons, Option.filter_some, isDigit,
        Bool.not_true, Bool.false_eq_true, if_false]
  | text value => simp [chars, layout, quote, opening]
  | array items => simp [chars_array, opening]
  | object members => simp [chars_object, opening]

theorem isTold_layoutMember {level : Nat} {member : String × Json}
    (told : IsTold (chars level) member.2) :
    IsTold (fun member => (layoutMember level member).toList) member := by
  intro other rest rest' ends ends' equal
  obtain ⟨key, value⟩ := member
  obtain ⟨key', value'⟩ := other
  have colon : ": ".toList = [':', ' '] := rfl
  simp only [layoutMember, String.toList_append, List.append_assoc, colon, List.cons_append,
    List.nil_append] at equal
  obtain ⟨rfl, later⟩ := isTold_quote key key' _ _ (endsNumber_cons (by decide) _)
    (endsNumber_cons (by decide) _) equal
  obtain ⟨rfl, same⟩ := told value' rest rest' ends ends' (List.cons.inj (List.cons.inj later).2).2
  exact ⟨rfl, same⟩

/-- A value can be told from what follows its layout. -/
theorem isTold_chars (level : Nat) (value : Json) : IsTold (chars level) value := by
  intro other rest rest' ends ends' equal
  have form : value.opening = other.opening := by
    rw [← head?_chars level value rest, equal, head?_chars]
  cases value with
  | number n =>
    cases other with
    | number m =>
      obtain ⟨rfl, same⟩ := isTold_number n m rest rest' ends ends' equal
      exact ⟨rfl, same⟩
    | text | array | object => cases form
  | text value =>
    cases other with
    | text other =>
      obtain ⟨rfl, same⟩ := isTold_quote value other rest rest' ends ends' equal
      exact ⟨rfl, same⟩
    | number | array | object => cases form
  | array items =>
    cases other with
    | array others =>
      have told : ∀ item ∈ items, IsTold (chars (level + 1)) item := fun item mem =>
        isTold_chars (level + 1) item
      rw [chars_array, chars_array] at equal
      obtain ⟨rfl, same⟩ := isTold_blockChars (by decide) level told others rest rest' ends ends'
        (List.cons.inj equal).2
      exact ⟨rfl, same⟩
    | number | text | object => cases form
  | object members =>
    cases other with
    | object others =>
      have told : ∀ member ∈ members,
          IsTold (fun member => (layoutMember (level + 1) member).toList) member :=
        fun member mem => isTold_layoutMember (isTold_chars (level + 1) member.2)
      rw [chars_object, chars_object] at equal
      obtain ⟨rfl, same⟩ := isTold_blockChars (by decide) level told others rest rest' ends ends'
        (List.cons.inj equal).2
      exact ⟨rfl, same⟩
    | number | text | array => cases form
termination_by sizeOf value
decreasing_by
  · subst_vars
    have smaller := List.sizeOf_lt_of_mem mem
    simp only [array.sizeOf_spec]
    omega
  · subst_vars
    have smaller := List.sizeOf_lt_of_mem mem
    obtain ⟨key, value⟩ := member
    simp only [object.sizeOf_spec, Prod.mk.sizeOf_spec] at smaller ⊢
    omega

/-- A value has its layout to itself. -/
theorem layout_injective (level : Nat) : Function.Injective (layout level) := by
  intro value other equal
  refine (isTold_chars level value other [] [] (by simp [EndsNumber]) (by simp [EndsNumber]) ?_).1
  rw [chars, chars, equal]

end TileCensus.Json
