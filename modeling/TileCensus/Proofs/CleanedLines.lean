import TileCensus.Proofs.Cleaning

/-!
# What cleaned lines hold

Nothing is left in a cleaned line that cleaning would take out (`IsPlain`): a blank stands where a
string or a comment was, so what was on its two sides never meets. Cleaning such a line again trims
it and does no more (`clean_isPlain`).

A cleaned line does not end in a blank. It begins with one in a single case, which `clean_blanks`
tells: a quote command cut the line, something is left before it, and the line opens with what
leaves a blank behind. On every other line both ends are trimmed.
-/

namespace TileCensus

/-! ## Runs of a text -/

namespace Text

/-- A maximal run of characters of a class in a text. It begins with the text or behind a character
that is not of the class, and it ends with the text or before one. -/
inductive IsRun (keep : Char → Bool) (run : List Char) : List Char → Prop where
  | first {after : List Char} (nonempty : run ≠ []) (kept : ∀ c ∈ run, keep c = true)
      (ended : ∀ c ∈ after.head?, ¬keep c = true) : IsRun keep run (run ++ after)
  | later {before text : List Char} {c : Char} (other : ¬keep c = true)
      (isRun : IsRun keep run text) : IsRun keep run (before ++ c :: text)

variable {keep : Char → Bool} {c : Char} {run word text : List Char}

theorem isRun_iff_of_kept (kept : ∀ c ∈ word, keep c = true) :
    IsRun keep run word ↔ run = word ∧ word ≠ [] := by
  constructor
  · intro isRun
    cases isRun with
    | @first after nonempty inside ended =>
      have whole := takeWhile_append_of_ended inside ended
      rw [List.takeWhile_eq_self_iff.mpr kept] at whole
      rw [whole]
      exact ⟨rfl, nonempty⟩
    | later other isRun => exact absurd (kept _ (by simp)) other
  · rintro ⟨rfl, nonempty⟩
    have whole : IsRun keep run (run ++ []) := .first nonempty kept (by simp)
    rwa [List.append_nil] at whole

/-- The runs of a text that begins with a finished one. -/
theorem isRun_append_cons_iff (kept : ∀ c ∈ word, keep c = true) (other : ¬keep c = true) :
    IsRun keep run (word ++ c :: text) ↔ run = word ∧ word ≠ [] ∨ IsRun keep run text := by
  have ended : ∀ d ∈ (c :: text).head?, ¬keep d = true := by simpa using other
  constructor
  · intro isRun
    generalize written : word ++ c :: text = whole at isRun
    cases isRun with
    | @first after nonempty inside finished =>
      left
      have same := congrArg (List.takeWhile keep) written
      rw [takeWhile_append_of_ended kept ended, takeWhile_append_of_ended inside finished] at same
      exact ⟨same.symm, same ▸ nonempty⟩
    | @later before rest d apart isRun =>
      right
      -- the character before the run is `c` or comes behind it, since it is not of the class
      rcases List.append_eq_append_iff.mp written with ⟨between, rfl, split⟩ | ⟨between, rfl, split⟩
      · cases between with
        | nil =>
          cases split
          exact isRun
        | cons first between =>
          cases split
          exact .later apart isRun
      · cases between with
        | nil =>
          cases split
          exact isRun
        | cons first between =>
          cases split
          exact absurd (kept _ (by simp)) apart
  · rintro (⟨rfl, nonempty⟩ | isRun)
    · exact .first nonempty kept ended
    · exact .later other isRun

theorem IsRun.append {after : List Char} (ended : ∀ c ∈ after.head?, ¬keep c = true)
    (isRun : IsRun keep run text) : IsRun keep run (text ++ after) := by
  induction isRun with
  | @first rest nonempty kept finished =>
    rw [List.append_assoc]
    refine .first nonempty kept ?_
    cases rest with
    | nil => exact ended
    | cons c rest => exact finished
  | later other _ ih =>
    rw [List.append_assoc, List.cons_append]
    exact .later other ih

theorem IsRun.of_append {before : List Char} (apart : ∀ c ∈ before, ¬keep c = true)
    (isRun : IsRun keep run text) : IsRun keep run (before ++ text) := by
  induction before with
  | nil => exact isRun
  | cons c before ih =>
    obtain ⟨other, apart⟩ := List.forall_mem_cons.mp apart
    have later : IsRun keep run ([] ++ c :: (before ++ text)) := .later other (ih apart)
    exact later

end Text

namespace Script

open Text

variable {c d : Char} {word line rest text : List Char}

/-! ## Where a line begins -/

/-- What is kept begins as the line does, or with the blank that something at its beginning left. -/
theorem mem_head?_keptFrom (head : d ∈ (keptFrom .code word rest).text.head?) :
    d ∈ (word.reverse ++ rest).head? ∨ word = [] ∧ d = ' ' ∧ OpensBlank rest := by
  induction rest generalizing word with
  | nil =>
    rw [keptFrom] at head
    split at head
    next => cases head
    next => exact .inl (by simpa using head)
  | cons c rest ih =>
    by_cases letter : isWordChar c = true
    · rw [keptFrom_of_isWordChar letter] at head
      rcases ih head with same | ⟨none, -⟩
      · exact .inl (by simpa using same)
      · cases none
    by_cases quote : word.reverse ∈ quoteCommands
    · rw [keptFrom_of_mem_quoteCommands letter quote] at head
      cases head
    obtain ⟨tail, kept, next⟩ := exists_keptFrom_eq_append letter quote rest
    rw [kept] at head
    cases run : word.reverse with
    | cons first letters =>
      rw [run] at head
      exact .inl (by simpa using head)
    | nil =>
      rw [run] at head
      rcases next d head with rfl | ⟨space, opens⟩
      · exact .inl rfl
      · exact .inr ⟨List.reverse_eq_nil_iff.mp run, space, opens⟩

theorem beginsBlank_keptFrom_iff : BeginsBlank (keptFrom .code [] line).text ↔ OpensBlank line := by
  constructor
  · rintro ⟨d, head, blank⟩
    rcases mem_head?_keptFrom head with same | ⟨-, -, opens⟩
    · obtain ⟨rest, rfl⟩ := List.head?_eq_some_iff.mp same
      exact .blank blank
    · exact opens
  · intro opens
    have plain : [] ∉ quoteCommands := by decide
    cases opens with
    | @blank c rest blank =>
      have other := not_isWordChar_of_isBlank blank
      have delimiter := not_mem_delimiters_of_isBlank blank
      simp only [List.mem_cons, not_or] at delimiter
      refine ⟨c, ?_, blank⟩
      rw [keptFrom.eq_def]
      simp [other, plain, delimiter]
    | string rest => exact ⟨' ', by simp [keptFrom, plain, isWordChar], by decide⟩
    | blockComment rest => exact ⟨' ', by simp [keptFrom, plain, isWordChar], by decide⟩

/-- What is left of a line after the block comment that it begins in. -/
def afterComment : List Char → List Char
  | '*' :: '/' :: rest => rest
  | _ :: rest => afterComment rest
  | [] => []

/-- The code that a line begins with, after the block comment that may be open before it. -/
def codeOf (inComment : Bool) (line : List Char) : List Char :=
  if inComment then afterComment line else line

theorem text_keptFrom_blockComment :
    (keptFrom .blockComment word line).text = (keptFrom .code [] (afterComment line)).text := by
  fun_induction afterComment line generalizing word with
  | case1 rest => rw [keptFrom]
  | case2 c rest inside ih =>
    rw [← @ih [], keptFrom]
    exact inside
  | case3 => rfl

/-! ## Blanks around a cleaned line -/

theorem Ending.not_endsBlank_trim (ending : Ending) (line : List Char) :
    ¬EndsBlank (ending.trim line) := by
  cases ending with
  | lineEnd => exact Text.not_endsBlank_trim line
  | lineComment => exact Text.not_endsBlank_trim line
  | payload => exact not_endsBlank_trimEnd line

theorem Ending.beginsBlank_trim_iff (ending : Ending) (line : List Char) :
    BeginsBlank (ending.trim line) ↔
      ending = .payload ∧ ending.trim line ≠ [] ∧ BeginsBlank line := by
  cases ending with
  | lineEnd => simpa [trim] using Text.not_beginsBlank_trim line
  | lineComment => simpa [trim] using Text.not_beginsBlank_trim line
  | payload => simpa [trim] using beginsBlank_trimEnd_iff

/-- A cleaned line does not end in a blank. It begins with one exactly if a quote command cut the
line, something is left before it, and the code of the line opens with a blank, a string or a block
comment. -/
theorem clean_blanks (inComment : Bool) (line : List Char) :
    ¬EndsBlank (clean inComment line).text ∧
      (BeginsBlank (clean inComment line).text ↔
        endingFrom (Region.atStart inComment) [] (trim line) = .payload ∧
          (clean inComment line).text ≠ [] ∧ OpensBlank (codeOf inComment (trim line))) := by
  have opens : BeginsBlank (keptFrom (Region.atStart inComment) [] (trim line)).text ↔
      OpensBlank (codeOf inComment (trim line)) := by
    rw [← beginsBlank_keptFrom_iff]
    cases inComment with
    | false => rfl
    | true =>
      change BeginsBlank (keptFrom .blockComment [] (trim line)).text ↔ _
      rw [text_keptFrom_blockComment]
      rfl
  rw [clean_eq, ← opens]
  exact ⟨Ending.not_endsBlank_trim _ _, Ending.beginsBlank_trim_iff _ _⟩

/-- Not every cleaned line is trimmed at both ends. -/
theorem not_forall_not_beginsBlank :
    ¬∀ (inComment : Bool) (line : List Char),
      ¬BeginsBlank (clean inComment line).text ∧ ¬EndsBlank (clean inComment line).text := by
  intro trimmed
  have cut : (clean false "\"\"a qputs 1".toList).text = " a".toList := by cbv
  obtain ⟨visible, -⟩ := trimmed false "\"\"a qputs 1".toList
  rw [cut] at visible
  exact visible ⟨' ', rfl, by decide⟩

/-! ## Plain texts -/

/-- A text has nothing in it that cleaning takes out. -/
@[mk_iff]
structure IsPlain (text : List Char) : Prop where
  lineComment : ¬['/', '/'] <:+: text
  blockComment : ¬['/', '*'] <:+: text
  string : '"' ∉ text
  quoteCommand : ∀ run, IsRun isWordChar run text → run ∉ quoteCommands

theorem opener_infix_append_iff (letters : ∀ c ∈ word, isWordChar c = true) :
    ['/', d] <:+: word ++ text ↔ ['/', d] <:+: text := by
  induction word with
  | nil => rfl
  | cons c word ih =>
    obtain ⟨letter, letters⟩ := List.forall_mem_cons.mp letters
    have other : '/' ≠ c := by
      rintro rfl
      exact absurd letter (by decide)
    rw [List.cons_append, List.infix_cons_iff, ih letters]
    simp [other]

theorem opener_infix_cons_iff :
    ['/', d] <:+: c :: text ↔ c = '/' ∧ d ∈ text.head? ∨ ['/', d] <:+: text := by
  rw [List.infix_cons_iff, List.cons_prefix_cons]
  cases text with
  | nil => simp
  | cons e text => simp [eq_comm]

theorem ne_nil_of_mem_quoteCommands (quote : word ∈ quoteCommands) : word ≠ [] := by
  rintro rfl
  exact absurd quote (by decide)

theorem isPlain_iff_of_letters (letters : ∀ c ∈ word, isWordChar c = true) :
    IsPlain word ↔ word ∉ quoteCommands := by
  have absent {d : Char} (other : ¬isWordChar d = true) : d ∉ word := by
    intro mem
    exact other (letters d mem)
  have unopened {d : Char} : ¬['/', d] <:+: word := by
    intro opener
    exact absent (by decide) (opener.subset (List.mem_cons_self ..))
  constructor
  · intro plain quote
    have isRun : IsRun isWordChar word word :=
      (isRun_iff_of_kept letters).mpr ⟨rfl, ne_nil_of_mem_quoteCommands quote⟩
    exact plain.quoteCommand word isRun quote
  · intro hidden
    refine ⟨unopened, unopened, absent (by decide), fun run isRun => ?_⟩
    obtain ⟨rfl, -⟩ := (isRun_iff_of_kept letters).mp isRun
    exact hidden

/-- A text is plain if the run that it begins with is no quote command, the character behind it
opens nothing, and the rest is plain. -/
theorem isPlain_append_cons_iff (letters : ∀ c ∈ word, isWordChar c = true)
    (other : ¬isWordChar c = true) :
    IsPlain (word ++ c :: text) ↔
      word ∉ quoteCommands ∧ c ≠ '"' ∧ (c = '/' → '/' ∉ text.head? ∧ '*' ∉ text.head?) ∧
        IsPlain text := by
  have opener (d : Char) :
      ['/', d] <:+: word ++ c :: text ↔ c = '/' ∧ d ∈ text.head? ∨ ['/', d] <:+: text := by
    rw [opener_infix_append_iff letters, opener_infix_cons_iff]
  have string : '"' ∈ word ++ c :: text ↔ c = '"' ∨ '"' ∈ text := by
    have absent : '"' ∉ word := fun mem => absurd (letters _ mem) (by decide)
    simp [absent, eq_comm]
  have commands : (∀ run, IsRun isWordChar run (word ++ c :: text) → run ∉ quoteCommands) ↔
      word ∉ quoteCommands ∧ ∀ run, IsRun isWordChar run text → run ∉ quoteCommands := by
    simp only [isRun_append_cons_iff letters other]
    constructor
    · intro hidden
      refine ⟨fun quote => ?_, fun run isRun => hidden run (.inr isRun)⟩
      exact hidden word (.inl ⟨rfl, ne_nil_of_mem_quoteCommands quote⟩) quote
    · rintro ⟨visible, hidden⟩ run (⟨rfl, -⟩ | isRun)
      · exact visible
      · exact hidden run isRun
  rw [isPlain_iff, isPlain_iff, opener, opener, string, commands]
  tauto

theorem isPlain_nil : IsPlain [] := (isPlain_iff_of_letters (by simp)).mpr (by decide)

/-- Nothing is left in what is kept of a line. -/
theorem isPlain_keptFrom (region : Region) (letters : ∀ c ∈ word, isWordChar c = true) :
    IsPlain (keptFrom region word rest).text := by
  have reversed {word : List Char} (letters : ∀ c ∈ word, isWordChar c = true) :
      ∀ c ∈ word.reverse, isWordChar c = true := by simpa using letters
  have blank : ¬isWordChar ' ' = true := by decide
  have apart {word tail : List Char} (letters : ∀ c ∈ word, isWordChar c = true)
      (hidden : word.reverse ∉ quoteCommands) (plain : IsPlain tail) :
      IsPlain (word.reverse ++ ' ' :: tail) :=
    (isPlain_append_cons_iff (reversed letters) blank).mpr ⟨hidden, by decide, by simp, plain⟩
  fun_induction keptFrom region word rest with
  | case1 word =>
    split
    next => exact isPlain_nil
    next hidden => exact (isPlain_iff_of_letters (reversed letters)).mpr hidden
  | case2 word c rest letter ih => exact ih (List.forall_mem_cons.mpr ⟨letter, letters⟩)
  | case3 => exact isPlain_nil
  | case4 word hidden => exact (isPlain_iff_of_letters (reversed letters)).mpr hidden
  | case5 word hidden rest kept other ih => exact apart letters hidden (ih (by simp))
  | case6 word hidden rest kept other ih => exact apart letters hidden (ih (by simp))
  | case7 word hidden c rest line block string kept other ih =>
    -- behind a slash that opens nothing comes what the line has there, or a blank
    have absent {d : Char} (visible : d ≠ ' ') (follows : ∀ tail, rest = d :: tail → False) :
        d ∉ (keptFrom .code [] rest).text.head? := by
      intro next
      rcases mem_head?_keptFrom next with same | ⟨-, space, -⟩
      · obtain ⟨tail, written⟩ := List.head?_eq_some_iff.mp same
        exact follows tail written
      · exact visible space
    refine (isPlain_append_cons_iff (reversed letters) other).mpr ⟨hidden, string, ?_, ih (by simp)⟩
    intro slash
    exact ⟨absent (by decide) (line · slash), absent (by decide) (block · slash)⟩
  | case8 => exact isPlain_nil
  | case9 word c rest ih => exact ih (by simp)
  | case10 word rest ih => exact ih (by simp)
  | case11 word c rest inside ih => exact ih (by simp)
  | case12 => exact isPlain_nil

/-- A plain text is kept whole. -/
theorem keptFrom_of_isPlain (letters : ∀ c ∈ word, isWordChar c = true)
    (plain : IsPlain (word.reverse ++ rest)) :
    keptFrom .code word rest = ⟨word.reverse ++ rest, false⟩ := by
  induction rest generalizing word with
  | nil =>
    rw [List.append_nil] at plain ⊢
    have hidden := (isPlain_iff_of_letters (by simpa using letters)).mp plain
    rw [keptFrom, if_neg hidden]
  | cons c rest ih =>
    by_cases letter : isWordChar c = true
    · have moved : (c :: word).reverse ++ rest = word.reverse ++ c :: rest := by simp
      rw [keptFrom_of_isWordChar letter, ih (List.forall_mem_cons.mpr ⟨letter, letters⟩), moved]
      rwa [moved]
    · obtain ⟨hidden, string, slash, plain⟩ :=
        (isPlain_append_cons_iff (by simpa using letters) letter).mp plain
      have kept := @ih [] (by simp) plain
      rw [keptFrom.eq_def]
      simp only [if_neg letter, if_neg hidden]
      split
      · exact absurd rfl (slash rfl).1
      · exact absurd rfl (slash rfl).2
      · exact absurd rfl string
      · rw [kept]
        rfl

/-! ## Cleaning a cleaned line -/

theorem IsPlain.of_append_isBlank {before after : List Char}
    (blankBefore : ∀ c ∈ before, isBlank c = true) (blankAfter : ∀ c ∈ after, isBlank c = true)
    (plain : IsPlain (before ++ (text ++ after))) : IsPlain text := by
  have inside : text <:+: before ++ (text ++ after) := ⟨before, after, by simp⟩
  refine ⟨fun opener => plain.lineComment (opener.trans inside),
    fun opener => plain.blockComment (opener.trans inside),
    fun mem => plain.string (inside.subset mem), fun run isRun => plain.quoteCommand run ?_⟩
  refine .of_append (fun c mem => not_isWordChar_of_isBlank (blankBefore c mem)) (isRun.append ?_)
  intro c first
  exact not_isWordChar_of_isBlank (blankAfter c (List.mem_of_mem_head? first))

theorem IsPlain.trim (plain : IsPlain text) : IsPlain (trim text) := by
  obtain ⟨before, after, blankBefore, blankAfter, split⟩ := exists_append_trim_append text
  have whole : IsPlain (before ++ (Text.trim text ++ after)) := by rwa [split]
  exact whole.of_append_isBlank blankBefore blankAfter

theorem IsPlain.trimEnd (plain : IsPlain text) : IsPlain (trimEnd text) := by
  obtain ⟨blanks, blank, split⟩ := exists_trimEnd_append text
  have whole : IsPlain ([] ++ (Text.trimEnd text ++ blanks)) := by rwa [List.nil_append, split]
  exact whole.of_append_isBlank (by simp) blank

theorem isPlain_clean (inComment : Bool) (line : List Char) :
    IsPlain (clean inComment line).text := by
  have plain : IsPlain (keptFrom (Region.atStart inComment) [] (Text.trim line)).text :=
    isPlain_keptFrom _ (by simp)
  rw [clean_eq]
  cases endingFrom (Region.atStart inComment) [] (Text.trim line) with
  | lineEnd => exact plain.trim
  | lineComment => exact plain.trim
  | payload => exact plain.trimEnd

theorem Ending.trim_trim (ending : Ending) (text : List Char) :
    ending.trim (Text.trim text) = Text.trim text := by
  cases ending with
  | lineEnd => exact Text.trim_trim text
  | lineComment => exact Text.trim_trim text
  | payload => exact trimEnd_trim text

theorem clean_of_isPlain (plain : IsPlain text) : clean false text = ⟨trim text, false⟩ := by
  have whole : keptFrom (Region.atStart false) [] (trim text) = ⟨trim text, false⟩ :=
    keptFrom_of_isPlain (by simp) plain.trim
  rw [clean_eq, whole, Ending.trim_trim]

/-- There is nothing to take out of a cleaned line. Cleaning it again trims it, leaves its words,
and ends outside block comments. -/
theorem clean_isPlain (inComment : Bool) (line : List Char) :
    IsPlain (clean inComment line).text ∧
      clean false (clean inComment line).text = ⟨trim (clean inComment line).text, false⟩ ∧
      words (clean false (clean inComment line).text).text = words (clean inComment line).text := by
  have plain := isPlain_clean inComment line
  have again := clean_of_isPlain plain
  refine ⟨plain, again, ?_⟩
  rw [again]
  exact words_trim _

end Script

end TileCensus
