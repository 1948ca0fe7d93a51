import Mathlib
import TileCensus.Script.Word

/-!
# Cleaned lines and blanks

Blanks at the ends of a line carry nothing: a blank is no part of a word, begins no number and is
no delimiter, so a line and its trimmed form have the same words (`words_trim`).

This is what lets a cleaned line be read forwards. `keptFrom` says what cleaning keeps of a line
trimmed at neither end and without collecting it backwards, and `endingFrom` how the line comes to
its end, which decides where it is trimmed (`clean_eq`). What is kept has the words of the cleaned
line (`words_clean`), and a block comment is open after both or after neither (`inComment_clean`).
-/

namespace TileCensus

/-! ## Blanks around a line -/

namespace Text

theorem exists_trimEnd_append (line : List Char) :
    ∃ blanks, (∀ c ∈ blanks, isBlank c = true) ∧ trimEnd line ++ blanks = line := by
  refine ⟨(line.reverse.takeWhile isBlank).reverse, ?_, ?_⟩
  · intro c mem
    exact List.all_eq_true.mp List.all_takeWhile c (List.mem_reverse.mp mem)
  · unfold trimEnd
    rw [← List.reverse_append, List.takeWhile_append_dropWhile, List.reverse_reverse]

theorem exists_append_trim_append (line : List Char) :
    ∃ before after, (∀ c ∈ before, isBlank c = true) ∧ (∀ c ∈ after, isBlank c = true) ∧
      before ++ (trim line ++ after) = line := by
  obtain ⟨after, blank, split⟩ := exists_trimEnd_append (line.dropWhile isBlank)
  refine ⟨line.takeWhile isBlank, after, List.all_eq_true.mp List.all_takeWhile, blank, ?_⟩
  unfold trim
  rw [split, List.takeWhile_append_dropWhile]

/-- A line begins with a blank. -/
def BeginsBlank (line : List Char) : Prop := ∃ c ∈ line.head?, isBlank c = true

/-- A line ends in a blank. -/
def EndsBlank (line : List Char) : Prop := ∃ c ∈ line.getLast?, isBlank c = true

section Trimming

variable {c : Char} {line rest : List Char}

theorem trimEnd_append_of_isBlank {blanks : List Char} (all : ∀ c ∈ blanks, isBlank c = true) :
    trimEnd (line ++ blanks) = trimEnd line := by
  unfold trimEnd
  rw [List.reverse_append, List.dropWhile_append_of_pos (by simpa using all)]

theorem trimEnd_append_cons (visible : ¬isBlank c = true) :
    trimEnd (line ++ c :: rest) = line ++ c :: trimEnd rest := by
  have stops : (c :: line.reverse).dropWhile isBlank = c :: line.reverse :=
    List.dropWhile_cons_of_neg visible
  unfold trimEnd
  rw [List.reverse_append, List.reverse_cons, List.append_assoc, List.singleton_append,
    List.dropWhile_append, stops]
  split
  next none =>
    rw [List.isEmpty_iff.mp none]
    simp
  next => simp

theorem not_endsBlank_trimEnd (line : List Char) : ¬EndsBlank (trimEnd line) := by
  rintro ⟨c, last, blank⟩
  have stopped := List.head?_dropWhile_not isBlank line.reverse
  rw [trimEnd, List.getLast?_reverse] at last
  rw [Option.mem_def.mp last] at stopped
  exact absurd blank (by simpa using stopped)

theorem not_endsBlank_trim (line : List Char) : ¬EndsBlank (trim line) := not_endsBlank_trimEnd _

theorem not_beginsBlank_trim (line : List Char) : ¬BeginsBlank (trim line) := by
  have stopped := List.head?_dropWhile_not isBlank line
  rintro ⟨c, first, blank⟩
  unfold trim at first
  cases dropped : line.dropWhile isBlank with
  | nil =>
    rw [dropped] at first
    cases first
  | cons d rest =>
    rw [dropped] at first stopped
    have visible : ¬isBlank d = true := by simpa using stopped
    have kept : trimEnd ([] ++ d :: rest) = [] ++ d :: trimEnd rest := trimEnd_append_cons visible
    rw [List.nil_append, List.nil_append] at kept
    rw [kept] at first
    cases first
    exact visible blank

theorem trimEnd_eq_self (visible : ¬EndsBlank line) : trimEnd line = line := by
  obtain ⟨blanks, all, split⟩ := exists_trimEnd_append line
  cases List.eq_nil_or_concat blanks with
  | inl none => rw [none, List.append_nil] at split; exact split
  | inr some =>
    obtain ⟨front, c, rfl⟩ := some
    refine absurd ⟨c, ?_, all c (by simp)⟩ visible
    rw [← split]
    simp

theorem trim_eq_trimEnd (visible : ¬BeginsBlank line) : trim line = trimEnd line := by
  unfold trim
  cases line with
  | nil => rfl
  | cons c rest =>
    rw [List.dropWhile_cons_of_neg]
    intro blank
    exact visible ⟨c, rfl, blank⟩

theorem trim_trim (line : List Char) : trim (trim line) = trim line := by
  rw [trim_eq_trimEnd (not_beginsBlank_trim line), trimEnd_eq_self (not_endsBlank_trim line)]

theorem trimEnd_trim (line : List Char) : trimEnd (trim line) = trim line :=
  trimEnd_eq_self (not_endsBlank_trim line)

theorem trim_trimEnd (line : List Char) : trim (trimEnd line) = trim line := by
  obtain ⟨blanks, all, split⟩ := exists_trimEnd_append line
  have same : trim (trimEnd line ++ blanks) = trim (trimEnd line) := by
    unfold trim
    rw [List.dropWhile_append]
    split
    next none => rw [List.isEmpty_iff.mp none, List.dropWhile_eq_nil_iff.mpr all]
    next => exact trimEnd_append_of_isBlank all
  rw [← same, split]

/-- Trimming a line at its end leaves its beginning, unless all of it is blank. -/
theorem beginsBlank_trimEnd_iff :
    BeginsBlank (trimEnd line) ↔ trimEnd line ≠ [] ∧ BeginsBlank line := by
  obtain ⟨blanks, -, split⟩ := exists_trimEnd_append line
  cases kept : trimEnd line with
  | nil => simp [BeginsBlank]
  | cons c rest =>
    rw [kept] at split
    rw [← split]
    simp [BeginsBlank]

end Trimming

end Text

namespace Script

open Text

variable {c : Char} {run line rest : List Char}

theorem not_isBlank_of_isWordChar (word : isWordChar c = true) : ¬isBlank c = true := by
  simp only [isWordChar, Char.isAlphanum, Char.isAlpha, Char.isUpper, Char.isLower, Char.isDigit,
    Bool.or_eq_true, Bool.and_eq_true, decide_eq_true_eq] at word
  simp only [isBlank, blankRanges, List.any_cons, List.any_nil, Bool.or_false, Bool.or_eq_true,
    Bool.and_eq_true, decide_eq_true_eq]
  rcases word with ((upper | lower) | digit) | rfl
  · have between : 65 ≤ c.toNat ∧ c.toNat ≤ 90 := upper
    omega
  · have between : 97 ≤ c.toNat ∧ c.toNat ≤ 122 := lower
    omega
  · have between : 48 ≤ c.toNat ∧ c.toNat ≤ 57 := digit
    omega
  · decide

theorem isWordChar_of_isDigit (digit : c.isDigit = true) : isWordChar c = true := by
  simp [isWordChar, Char.isAlphanum, digit]

theorem not_isWordChar_of_isBlank (blank : isBlank c = true) : ¬isWordChar c = true := by
  intro word
  exact not_isBlank_of_isWordChar word blank

theorem not_isDigit_of_isBlank (blank : isBlank c = true) : ¬c.isDigit = true := by
  intro digit
  exact not_isBlank_of_isWordChar (isWordChar_of_isDigit digit) blank

/-- A blank is none of the characters that mean something between words. -/
theorem not_mem_delimiters_of_isBlank (blank : isBlank c = true) : c ∉ ['-', '/', '*', '"'] := by
  intro mem
  have plain : ∀ d ∈ ['-', '/', '*', '"'], ¬isBlank d = true := by
    simp [isBlank, blankRanges]
  exact plain c mem blank

/-! ## Words and blanks -/

theorem startsNumber_of_isBlank (blank : isBlank c = true) : startsNumber c rest = false := by
  have other : c ≠ '-' := by
    rintro rfl
    exact not_mem_delimiters_of_isBlank blank (by simp)
  simp [startsNumber, other]

theorem startsNumber_append (follows : ¬((line.head?.map Char.isDigit).getD false) = true) :
    startsNumber c (rest ++ line) = startsNumber c rest := by
  cases rest with
  | cons d rest => rfl
  | nil =>
    rw [Bool.not_eq_true] at follows
    simp [startsNumber, follows]

theorem wordsFrom_append_of_isWordChar {word : List Char} (all : ∀ c ∈ word, isWordChar c = true) :
    wordsFrom run (word ++ rest) = wordsFrom (word.reverse ++ run) rest := by
  induction word generalizing run with
  | nil => rfl
  | cons c word ih =>
    obtain ⟨head, tail⟩ := List.forall_mem_cons.mp all
    rw [List.cons_append, wordsFrom, if_pos head, ih tail, List.reverse_cons, List.append_assoc]
    rfl

/-- A blank ends a word, and no number begins before it. -/
theorem wordsFrom_append_cons_of_isBlank (blank : isBlank c = true) :
    wordsFrom run (line ++ c :: rest) = wordsFrom run line ++ words rest := by
  induction line generalizing run with
  | nil =>
    have other := not_isWordChar_of_isBlank blank
    simp [wordsFrom, other, startsNumber_of_isBlank blank, words]
  | cons d line ih =>
    have follows : startsNumber d (line ++ c :: rest) = startsNumber d line :=
      startsNumber_append (by simpa using not_isDigit_of_isBlank blank)
    rw [List.cons_append, wordsFrom, wordsFrom, follows, ih, ih]
    split
    next => rfl
    next => rw [List.append_assoc]

theorem words_append_of_isBlank {blanks : List Char} (all : ∀ c ∈ blanks, isBlank c = true) :
    words (blanks ++ line) = words line := by
  induction blanks with
  | nil => rfl
  | cons c blanks ih =>
    obtain ⟨head, tail⟩ := List.forall_mem_cons.mp all
    have skipped : wordsFrom [] ([] ++ c :: (blanks ++ line)) = words (blanks ++ line) :=
      wordsFrom_append_cons_of_isBlank head
    exact skipped.trans (ih tail)

theorem wordsFrom_append_of_isBlank {blanks : List Char} (all : ∀ c ∈ blanks, isBlank c = true) :
    wordsFrom run (line ++ blanks) = wordsFrom run line := by
  cases blanks with
  | nil => rw [List.append_nil]
  | cons c blanks =>
    obtain ⟨head, tail⟩ := List.forall_mem_cons.mp all
    have none : words (blanks ++ []) = [] := words_append_of_isBlank tail
    rw [wordsFrom_append_cons_of_isBlank head, ← List.append_nil blanks, none, List.append_nil]

theorem words_trimEnd (line : List Char) : words (trimEnd line) = words line := by
  obtain ⟨blanks, all, split⟩ := exists_trimEnd_append line
  have same : words (trimEnd line ++ blanks) = words (trimEnd line) :=
    wordsFrom_append_of_isBlank all
  rw [← same, split]

theorem words_trim (line : List Char) : words (trim line) = words line := by
  obtain ⟨before, after, allBefore, allAfter, split⟩ := exists_append_trim_append line
  have same : words (trim line ++ after) = words (trim line) := wordsFrom_append_of_isBlank allAfter
  rw [← same, ← words_append_of_isBlank allBefore, split]

/-! ## What cleaning keeps -/

/-- What cleaning keeps of the rest of a line, read forwards and not trimmed, and whether a block
comment is open after it. `word` is as in `cleanFrom`. -/
def keptFrom (region : Region) (word rest : List Char) : Cleaned :=
  match region, rest with
  | .code, [] => ⟨if word.reverse ∈ quoteCommands then [] else word.reverse, false⟩
  | .code, c :: rest =>
    if isWordChar c then keptFrom .code (c :: word) rest
    else if word.reverse ∈ quoteCommands then ⟨[], false⟩
    else
      match c, rest with
      | '/', '/' :: _ => ⟨word.reverse, false⟩
      | '/', '*' :: rest =>
        let kept := keptFrom .blockComment [] rest
        ⟨word.reverse ++ ' ' :: kept.text, kept.inComment⟩
      | '"', rest =>
        let kept := keptFrom .string [] rest
        ⟨word.reverse ++ ' ' :: kept.text, kept.inComment⟩
      | c, rest =>
        let kept := keptFrom .code [] rest
        ⟨word.reverse ++ c :: kept.text, kept.inComment⟩
  | .string, [] => ⟨[], false⟩
  | .string, c :: rest => keptFrom (if c = '"' then .code else .string) [] rest
  | .blockComment, '*' :: '/' :: rest => keptFrom .code [] rest
  | .blockComment, _ :: rest => keptFrom .blockComment [] rest
  | .blockComment, [] => ⟨[], true⟩

theorem keptFrom_of_isWordChar {word : List Char} (h : isWordChar c = true) :
    keptFrom .code word (c :: rest) = keptFrom .code (c :: word) rest := by
  rw [keptFrom.eq_def]
  exact if_pos h

theorem keptFrom_of_mem_quoteCommands {word : List Char} (h : ¬isWordChar c = true)
    (quote : word.reverse ∈ quoteCommands) : keptFrom .code word (c :: rest) = ⟨[], false⟩ := by
  rw [keptFrom.eq_def]
  exact (if_neg h).trans (if_pos quote)

/-- Cleaning keeps characters of the line and adds none but spaces. -/
theorem mem_of_mem_keptFrom {region : Region} {word : List Char}
    (mem : c ∈ (keptFrom region word rest).text) : c ∈ word ∨ c ∈ rest ∨ c = ' ' := by
  fun_induction keptFrom region word rest <;> grind

theorem startsNumber_of_mem_quoteCommands {word : List Char} (quote : word ∈ quoteCommands)
    (c : Char) (rest : List Char) : startsNumber c (word ++ rest) = false := by
  have letters : ∀ word ∈ quoteCommands, ∃ d, word.head? = some d ∧ d.isDigit = false := by
    simp [quoteCommands]
  obtain ⟨d, head, letter⟩ := letters word quote
  obtain ⟨tail, rfl⟩ := List.head?_eq_some_iff.mp head
  simp [startsNumber, letter]

/-- A line opens with something that leaves a blank in what is kept of it. -/
inductive OpensBlank : List Char → Prop where
  | blank {c : Char} {rest : List Char} (blank : isBlank c = true) : OpensBlank (c :: rest)
  | string (rest : List Char) : OpensBlank ('"' :: rest)
  | blockComment (rest : List Char) : OpensBlank ('/' :: '*' :: rest)

/-- What is kept begins with the run. Behind it comes the character that ends the run, or the blank
that something in its place left, or nothing. -/
theorem exists_keptFrom_eq_append {word : List Char} (other : ¬isWordChar c = true)
    (quote : word.reverse ∉ quoteCommands) (rest : List Char) :
    ∃ tail, (keptFrom .code word (c :: rest)).text = word.reverse ++ tail ∧
      ∀ d ∈ tail.head?, d = c ∨ d = ' ' ∧ OpensBlank (c :: rest) := by
  rw [keptFrom.eq_def]
  simp only [if_neg other, if_neg quote]
  split
  · exact ⟨[], (List.append_nil _).symm, by simp⟩
  · exact ⟨_, rfl, by simpa using .blockComment _⟩
  · exact ⟨_, rfl, by simpa using .string _⟩
  · exact ⟨_, rfl, by simp⟩

theorem startsNumber_of_head? {sign : Char} (apart : ∀ d ∈ rest.head?, d.isDigit = false) :
    startsNumber sign rest = false := by
  cases rest with
  | nil => simp [startsNumber]
  | cons d rest => simp [startsNumber, apart d rfl]

/-- Cleaning moves no digit to a minus sign and none away from it. -/
theorem startsNumber_keptFrom (c : Char) (word rest : List Char) :
    startsNumber c (keptFrom .code word rest).text = startsNumber c (word.reverse ++ rest) := by
  induction rest generalizing word with
  | nil =>
    rw [keptFrom]
    by_cases quote : word.reverse ∈ quoteCommands
    · rw [if_pos quote, startsNumber_of_mem_quoteCommands quote]
      simp [startsNumber]
    · rw [if_neg quote, List.append_nil]
  | cons d rest ih =>
    by_cases letter : isWordChar d = true
    · rw [keptFrom_of_isWordChar letter, ih, List.reverse_cons, List.append_assoc]
      rfl
    by_cases quote : word.reverse ∈ quoteCommands
    · rw [keptFrom_of_mem_quoteCommands letter quote, startsNumber_of_mem_quoteCommands quote]
      simp [startsNumber]
    obtain ⟨tail, kept, next⟩ := exists_keptFrom_eq_append letter quote rest
    rw [kept]
    cases word.reverse with
    | nil =>
      have digit : d.isDigit = false := by simpa using mt isWordChar_of_isDigit letter
      have apart : ∀ e ∈ tail.head?, e.isDigit = false := by
        intro e head
        rcases next e head with rfl | ⟨rfl, -⟩
        · exact digit
        · decide
      rw [List.nil_append, startsNumber_of_head? apart, startsNumber_of_head? (by simpa using digit)]
    | cons first word => rfl

/-- How the reading of a line comes to its end: with the line, at a line comment, or at the free
text after a quote command. -/
inductive Ending where
  | lineEnd
  | lineComment
  | payload
deriving DecidableEq, Repr

/-- How reading the rest of a line comes to its end. `word` is as in `cleanFrom`. -/
def endingFrom (region : Region) (word rest : List Char) : Ending :=
  match region, rest with
  | .code, [] => .lineEnd
  | .code, c :: rest =>
    if isWordChar c then endingFrom .code (c :: word) rest
    else if word.reverse ∈ quoteCommands then .payload
    else
      match c, rest with
      | '/', '/' :: _ => .lineComment
      | '/', '*' :: rest => endingFrom .blockComment [] rest
      | '"', rest => endingFrom .string [] rest
      | _, rest => endingFrom .code [] rest
  | .string, [] => .lineEnd
  | .string, c :: rest => endingFrom (if c = '"' then .code else .string) [] rest
  | .blockComment, '*' :: '/' :: rest => endingFrom .code [] rest
  | .blockComment, _ :: rest => endingFrom .blockComment [] rest
  | .blockComment, [] => .lineEnd

theorem endingFrom_of_isWordChar {word : List Char} (h : isWordChar c = true) :
    endingFrom .code word (c :: rest) = endingFrom .code (c :: word) rest := by
  rw [endingFrom.eq_def]
  exact if_pos h

theorem endingFrom_of_mem_quoteCommands {word : List Char} (h : ¬isWordChar c = true)
    (quote : word.reverse ∈ quoteCommands) : endingFrom .code word (c :: rest) = .payload := by
  rw [endingFrom.eq_def]
  exact (if_neg h).trans (if_pos quote)

/-- A kept text is trimmed at both ends, but at its end only where free text was cut off. -/
def Ending.trim : Ending → List Char → List Char
  | lineEnd | lineComment => Text.trim
  | payload => trimEnd

/-- Cleaning keeps what `keptFrom` says, trimmed as the end of the line asks for. -/
theorem cleanFrom_eq (region : Region) (out word rest : List Char) :
    cleanFrom region out word rest =
      ⟨(endingFrom region word rest).trim (out.reverse ++ (keptFrom region word rest).text),
        (keptFrom region word rest).inComment⟩ := by
  fun_induction cleanFrom region out word rest with
  | case1 out word =>
    rw [keptFrom, endingFrom]
    split <;> simp [Ending.trim]
  | case2 out word c rest h ih => rwa [keptFrom_of_isWordChar h, endingFrom_of_isWordChar h]
  | case3 out word c rest h quote =>
    rw [keptFrom_of_mem_quoteCommands h quote, endingFrom_of_mem_quoteCommands h quote]
    simp [Ending.trim]
  | case4 out word quote tail h => simp [keptFrom, endingFrom, Ending.trim, h, quote]
  | case5 out word quote rest h ih => simpa [keptFrom, endingFrom, h, quote] using ih
  | case6 out word quote rest h ih => simpa [keptFrom, endingFrom, h, quote] using ih
  | case7 out word quote c rest line block string other ih =>
    simpa [keptFrom, endingFrom, other, quote, line, block, string] using ih
  | case8 => simp [keptFrom, endingFrom, Ending.trim]
  | case9 out word c rest ih => simpa [keptFrom, endingFrom] using ih
  | case10 out word rest ih => simpa [keptFrom, endingFrom] using ih
  | case11 out word c rest other ih => simpa [keptFrom, endingFrom, other] using ih
  | case12 => simp [keptFrom, endingFrom, Ending.trim]

/-- The region in which a line begins. -/
def Region.atStart (inComment : Bool) : Region := if inComment then .blockComment else .code

theorem clean_eq (inComment : Bool) (line : List Char) :
    clean inComment line =
      ⟨(endingFrom (Region.atStart inComment) [] (trim line)).trim
          (keptFrom (Region.atStart inComment) [] (trim line)).text,
        (keptFrom (Region.atStart inComment) [] (trim line)).inComment⟩ :=
  cleanFrom_eq _ [] [] _

theorem clean_trim (inComment : Bool) (line : List Char) :
    clean inComment (trim line) = clean inComment line := by
  unfold clean
  rw [trim_trim]

theorem clean_trimEnd (inComment : Bool) (line : List Char) :
    clean inComment (trimEnd line) = clean inComment line := by
  unfold clean
  rw [trim_trimEnd]

theorem inComment_clean (inComment : Bool) (line : List Char) :
    (clean inComment line).inComment =
      (keptFrom (Region.atStart inComment) [] (trim line)).inComment := by
  rw [clean_eq]

theorem Ending.words_trim (ending : Ending) (line : List Char) :
    words (ending.trim line) = words line := by
  cases ending with
  | lineEnd => exact Script.words_trim line
  | lineComment => exact Script.words_trim line
  | payload => exact words_trimEnd line

theorem words_clean (inComment : Bool) (line : List Char) :
    words (clean inComment line).text =
      words (keptFrom (Region.atStart inComment) [] (trim line)).text := by
  rw [clean_eq]
  exact Ending.words_trim _ _

end Script

end TileCensus
