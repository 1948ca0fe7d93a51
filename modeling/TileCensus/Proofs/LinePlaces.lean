import TileCensus.Instance.Line
import TileCensus.Proofs.Cleaning

/-!
# Places of instance lines

The place in front of an instance line is a path, a number and their colons. It is the shortest
beginning of that form: no number stands between colons in the path and the colon after it
(`IsPlace`). What is cleaned is the text behind the place, and it is cleaned as if it stood alone,
whatever the path holds. A line has no place if no number stands between colons before its first
blank, and then all of it is cleaned (`clean_place`).
-/

namespace TileCensus

open Text

namespace Instance

variable {c : Char} {digits path line body text rest : List Char}

/-! ## Numbers between colons -/

/-- One decimal digit or more. -/
def IsNumber (digits : List Char) : Prop :=
  digits ≠ [] ∧ ∀ c ∈ digits, isDecimalDigit c = true

/-- A text begins with a number and a colon. -/
def BeginsNumber (text : List Char) : Prop := ∃ digits, IsNumber digits ∧ digits ++ [':'] <+: text

/-- A number stands between colons in a text. -/
def HoldsNumber (text : List Char) : Prop :=
  ∃ digits, IsNumber digits ∧ ':' :: (digits ++ [':']) <:+: text

/-- The characters of a line up to its first blank. -/
def unblankedFront (line : List Char) : List Char := line.takeWhile fun c => !isBlank c

theorem unblankedFront_cons (visible : ¬isBlank c = true) :
    unblankedFront (c :: rest) = c :: unblankedFront rest := by
  simp [unblankedFront, visible]

theorem IsNumber.colon_not_mem (number : IsNumber digits) : ':' ∉ digits := by
  intro colon
  exact absurd (number.2 ':' colon) (by decide)

theorem not_isBlank_of_isDecimalDigit (digit : isDecimalDigit c = true) : ¬isBlank c = true := by
  have apart : ∀ first ∈ digitZeros, ∀ range ∈ blankRanges,
      range.2 < first ∨ first + 10 ≤ range.1 := by decide
  intro blank
  obtain ⟨first, zero, within⟩ := List.any_eq_true.mp digit
  obtain ⟨range, listed, inside⟩ := List.any_eq_true.mp blank
  simp only [Bool.and_eq_true, decide_eq_true_eq] at within inside
  rcases apart first zero range listed with below | above
  · omega
  · omega

theorem afterNumber?_eq_some_iff :
    afterNumber? line = some body ↔ ∃ digits, IsNumber digits ∧ line = digits ++ ':' :: body := by
  have split : afterNumber? line = some body ↔
      line.takeWhile isDecimalDigit ≠ [] ∧ line.dropWhile isDecimalDigit = ':' :: body := by
    unfold afterNumber?
    cases line.takeWhile isDecimalDigit with
    | nil => simp
    | cons first digits => split <;> simp_all
  rw [split, exists_run_iff (by decide)]
  simp only [IsNumber, and_assoc]

theorem beginsNumber_iff : BeginsNumber text ↔ ∃ body, afterNumber? text = some body := by
  simp only [afterNumber?_eq_some_iff]
  constructor
  · rintro ⟨digits, number, body, rfl⟩
    exact ⟨body, digits, number, by simp⟩
  · rintro ⟨body, digits, number, rfl⟩
    exact ⟨digits, number, body, by simp⟩

/-- A number at the beginning ends at the first colon, so what follows a colon does not matter. -/
theorem beginsNumber_append_iff (colon : ':' ∈ text) :
    BeginsNumber (text ++ rest) ↔ BeginsNumber text := by
  constructor
  · rintro ⟨digits, number, front⟩
    refine ⟨digits, number, ?_⟩
    rcases List.prefix_or_prefix_of_prefix front (List.prefix_append text rest) with inside | short
    · exact inside
    · rcases List.prefix_concat_iff.mp short with rfl | within
      · exact List.prefix_rfl
      · exact absurd (within.subset colon) number.colon_not_mem
  · rintro ⟨digits, number, front⟩
    exact ⟨digits, number, front.trans (List.prefix_append text rest)⟩

theorem beginsNumber_unblankedFront_iff :
    BeginsNumber (unblankedFront text) ↔ BeginsNumber text := by
  constructor
  · rintro ⟨digits, number, front⟩
    exact ⟨digits, number, front.trans (List.takeWhile_prefix _)⟩
  · rintro ⟨digits, number, tail, rfl⟩
    have visible : ∀ c ∈ digits ++ [':'], (!isBlank c) = true := by
      intro c mem
      rcases List.mem_append.mp mem with digit | colon
      · simpa using not_isBlank_of_isDecimalDigit (number.2 c digit)
      · obtain rfl := List.mem_singleton.mp colon
        decide
    refine ⟨digits, number, ?_⟩
    rw [unblankedFront, List.takeWhile_append_of_pos visible]
    exact List.prefix_append _ _

theorem not_holdsNumber_nil : ¬HoldsNumber [] := by
  rintro ⟨digits, -, inside⟩
  cases List.infix_nil.mp inside

theorem holdsNumber_cons_iff :
    HoldsNumber (c :: text) ↔ c = ':' ∧ BeginsNumber text ∨ HoldsNumber text := by
  simp only [HoldsNumber, BeginsNumber, List.infix_cons_iff, List.cons_prefix_cons, and_or_left,
    exists_or, eq_comm (a := ':'), and_left_comm, exists_and_left]

/-! ## Places -/

/-- A path and a number are the place in front of an instance line: there is no blank in the path,
and no number stands between colons before the place ends. -/
structure IsPlace (path digits : List Char) : Prop where
  unblanked : ∀ c ∈ path, ¬isBlank c = true
  earliest : ¬HoldsNumber (path ++ [':'])
  number : IsNumber digits

theorem afterPlace?_colon (found : afterNumber? rest = some body) :
    afterPlace? (':' :: rest) = some body := by
  simp [afterPlace?, found]

/-- No place ends at a character that no number and colon follow. -/
theorem afterPlace?_cons (passed : ¬(c = ':' ∧ BeginsNumber rest)) :
    afterPlace? (c :: rest) = if isBlank c then none else afterPlace? rest := by
  have none : (if c = ':' then afterNumber? rest else none) = none := by
    split
    next colon =>
      by_contra found
      exact passed ⟨colon, beginsNumber_iff.mpr (Option.ne_none_iff_exists'.mp found)⟩
    next => rfl
  rw [afterPlace?, none]

/-- A character comes in front of a path if no number begins right behind it. -/
theorem IsPlace.cons_iff :
    IsPlace (c :: path) digits ↔
      ¬isBlank c = true ∧ ¬(c = ':' ∧ BeginsNumber (path ++ ':' :: rest)) ∧ IsPlace path digits := by
  have begins : BeginsNumber (path ++ ':' :: rest) ↔ BeginsNumber (path ++ [':']) := by
    rw [List.append_cons]
    exact beginsNumber_append_iff (by simp)
  constructor
  · rintro ⟨unblanked, earliest, number⟩
    obtain ⟨visible, unblanked⟩ := List.forall_mem_cons.mp unblanked
    rw [List.cons_append, holdsNumber_cons_iff, not_or, ← begins] at earliest
    exact ⟨visible, earliest.1, unblanked, earliest.2, number⟩
  · rintro ⟨visible, passed, unblanked, earliest, number⟩
    refine ⟨List.forall_mem_cons.mpr ⟨visible, unblanked⟩, ?_, number⟩
    rw [List.cons_append, holdsNumber_cons_iff, not_or, ← begins]
    exact ⟨passed, earliest⟩

theorem isPlace_nil (number : IsNumber digits) : IsPlace [] digits := by
  refine ⟨by simp, ?_, number⟩
  rw [List.nil_append, holdsNumber_cons_iff, not_or]
  refine ⟨?_, not_holdsNumber_nil⟩
  rintro ⟨-, digits, -, front⟩
  simpa using List.prefix_nil.mp front

theorem afterPlace?_of_isPlace (place : IsPlace path digits) :
    afterPlace? (path ++ ':' :: (digits ++ ':' :: body)) = some body := by
  induction path with
  | nil => exact afterPlace?_colon (afterNumber?_eq_some_iff.mpr ⟨digits, place.number, rfl⟩)
  | cons c path ih =>
    obtain ⟨visible, passed, place⟩ := IsPlace.cons_iff.mp place
    rw [List.cons_append, afterPlace?_cons passed, if_neg visible]
    exact ih place

theorem exists_isPlace (present : HoldsNumber (unblankedFront line)) :
    ∃ path digits text, IsPlace path digits ∧ line = path ++ ':' :: (digits ++ ':' :: text) := by
  induction line with
  | nil => exact absurd present not_holdsNumber_nil
  | cons c rest ih =>
    by_cases blank : isBlank c = true
    · have front : unblankedFront (c :: rest) = [] := by simp [unblankedFront, blank]
      rw [front] at present
      exact absurd present not_holdsNumber_nil
    · rw [unblankedFront_cons blank, holdsNumber_cons_iff, beginsNumber_unblankedFront_iff] at present
      by_cases ends : c = ':' ∧ BeginsNumber rest
      · obtain ⟨rfl, begins⟩ := ends
        obtain ⟨body, found⟩ := beginsNumber_iff.mp begins
        obtain ⟨digits, number, rfl⟩ := afterNumber?_eq_some_iff.mp found
        exact ⟨[], digits, body, isPlace_nil number, rfl⟩
      · obtain ⟨path, digits, text, place, rfl⟩ := ih (present.resolve_left ends)
        exact ⟨c :: path, digits, text, IsPlace.cons_iff.mpr ⟨blank, ends, place⟩, rfl⟩

theorem afterPlace?_eq_none_iff :
    afterPlace? line = none ↔ ¬HoldsNumber (unblankedFront line) := by
  constructor
  · intro none present
    obtain ⟨path, digits, text, place, rfl⟩ := exists_isPlace present
    rw [afterPlace?_of_isPlace place] at none
    cases none
  intro absent
  induction line with
  | nil => rfl
  | cons c rest ih =>
    by_cases blank : isBlank c = true
    · have passed : ¬(c = ':' ∧ BeginsNumber rest) := by
        rintro ⟨rfl, -⟩
        exact absurd blank (by decide)
      rw [afterPlace?_cons passed, if_pos blank]
    · rw [unblankedFront_cons blank, holdsNumber_cons_iff, not_or,
        beginsNumber_unblankedFront_iff] at absent
      rw [afterPlace?_cons absent.1, if_neg blank]
      exact ih absent.2

theorem afterPlace?_eq_some_iff :
    afterPlace? line = some body ↔
      ∃ path digits, IsPlace path digits ∧ line = path ++ ':' :: (digits ++ ':' :: body) := by
  constructor
  · intro found
    by_cases present : HoldsNumber (unblankedFront line)
    · obtain ⟨path, digits, text, place, rfl⟩ := exists_isPlace present
      rw [afterPlace?_of_isPlace place] at found
      cases found
      exact ⟨path, digits, place, rfl⟩
    · rw [afterPlace?_eq_none_iff.mpr present] at found
      cases found
  · rintro ⟨path, digits, place, rfl⟩
    exact afterPlace?_of_isPlace place

/-! ## Cleaning behind a place -/

theorem trim_place (place : IsPlace path digits) :
    trim (path ++ ':' :: (digits ++ ':' :: text)) =
      path ++ ':' :: (digits ++ ':' :: trimEnd text) := by
  have colon : ¬isBlank ':' = true := by decide
  have visible : ¬BeginsBlank (path ++ ':' :: (digits ++ ':' :: text)) := by
    rintro ⟨c, first, blank⟩
    cases path with
    | nil =>
      cases first
      exact colon blank
    | cons d path =>
      cases first
      exact place.unblanked _ (by simp) blank
  rw [trim_eq_trimEnd visible, trimEnd_append_cons colon, trimEnd_append_cons colon]

/-- The text behind a place is cleaned as it is alone, and a line without a place is cleaned as a
whole. A line has a place if a number stands between colons before its first blank. -/
theorem clean_place :
    (∀ path digits text : List Char, IsPlace path digits →
      clean (path ++ ':' :: (digits ++ ':' :: text)) = (Script.clean false text).text) ∧
    (∀ line : List Char, ¬HoldsNumber (unblankedFront (trim line)) →
      clean line = (Script.clean false line).text) ∧
    ∀ line : List Char, HoldsNumber (unblankedFront (trim line)) →
      ∃ path digits text, IsPlace path digits ∧
        trim line = path ++ ':' :: (digits ++ ':' :: text) := by
  refine ⟨fun path digits text place => ?_, fun line absent => ?_, fun line => exists_isPlace⟩
  · change (Script.clean false ((afterPlace? (trim _)).getD (trim _))).text = _
    rw [trim_place place, afterPlace?_of_isPlace place, Option.getD_some, Script.clean_trimEnd]
  · change (Script.clean false ((afterPlace? (trim line)).getD (trim line))).text = _
    rw [afterPlace?_eq_none_iff.mpr absent, Option.getD_none, Script.clean_trim]

/-- A drive, comments, quotes and a quote command in a path hide nothing, a number that a letter
follows ends no place, and the first number between colons does. -/
theorem clean_place_drivePath :
    (IsPlace "C:/a//\"/*|qputs".toList "12".toList ∧
      clean ("C:/a//\"/*|qputs".toList ++ ':' :: ("12".toList ++ ':' :: " spawn RPG//:3:".toList)) =
        "spawn RPG".toList) ∧
    (¬HoldsNumber (unblankedFront (trim " x:1a: y:2:z ".toList)) ∧
      clean " x:1a: y:2:z ".toList = "x:1a: y:2:z".toList) ∧
    HoldsNumber (unblankedFront (trim " x:1:2:y ".toList)) ∧
      ∃ path digits text, IsPlace path digits ∧
        trim " x:1:2:y ".toList = path ++ ':' :: (digits ++ ':' :: text) := by
  obtain ⟨behind, whole, placed⟩ := clean_place
  have place : IsPlace "C:/a//\"/*|qputs".toList "12".toList := by
    refine ⟨by simp [isBlank, blankRanges], ?_, by decide, List.all_eq_true.mp (by cbv)⟩
    have none : afterPlace? "C:/a//\"/*|qputs:".toList = none := by cbv
    exact afterPlace?_eq_none_iff.mp none
  have absent : ¬HoldsNumber (unblankedFront (trim " x:1a: y:2:z ".toList)) := by
    exact afterPlace?_eq_none_iff.mp (by cbv)
  have present : HoldsNumber (unblankedFront (trim " x:1:2:y ".toList)) := by
    have found : afterPlace? (trim " x:1:2:y ".toList) = some "2:y".toList := by cbv
    by_contra none
    rw [afterPlace?_eq_none_iff.mpr none] at found
    cases found
  exact ⟨⟨place, (behind _ _ _ place).trans (by cbv)⟩, ⟨absent, (whole _ absent).trans (by cbv)⟩,
    present, placed _ present⟩

end Instance

end TileCensus
