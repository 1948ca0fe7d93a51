import TileCensus.Proofs.Cleaning

/-!
# Reading a text in one pass

Cleaning a line and splitting what is left into words amounts to one pass over the raw text. The
pass (`scanFrom`) stands in code, in a comment, in a string or in the free text after a quote
command, it collects the run of word characters it is in, and it never rewrites what it reads. A
comment, a string and free text end with their line, and a block comment is the one thing that
goes on after it.

The laws say that both ways give the same tokens and leave a block comment open alike, line by
line and over a whole text.
-/

namespace TileCensus.Script

open Text

/-! ## The pass -/

/-- What a pass over a text meets. -/
inductive Symbol where
  | char (c : Char)
  | lineEnd
deriving DecidableEq, Repr

/-- Where in a text a pass stands. -/
inductive Mode where
  | code
  | lineComment
  | string
  | payload
  | blockComment
deriving DecidableEq, Repr

/-- Where a pass stands on the next line. -/
def Mode.atLineEnd : Mode → Mode
  | blockComment => blockComment
  | _ => code

/-- The mode in which a pass is in a region of a line. -/
def Region.mode : Region → Mode
  | code => .code
  | string => .string
  | blockComment => .blockComment

/-- What a pass finds: tokens, and whether it ends inside a block comment. -/
structure Scan where
  tokens : List Token
  inComment : Bool
deriving DecidableEq, Repr

/-- What is found when some tokens come first. -/
def Scan.after (tokens : List Token) (scan : Scan) : Scan :=
  ⟨tokens ++ scan.tokens, scan.inComment⟩

/-- The token of a finished run, read backwards. There is none for an empty run, and a quote
command hides itself. -/
def runToken (run : List Char) (line : Nat) : List Token :=
  if run = [] ∨ run.reverse ∈ quoteCommands then [] else [⟨String.ofList run.reverse, line⟩]

/-- Whether a digit comes next. -/
def digitNext : List Symbol → Bool
  | .char c :: _ => c.isDigit
  | _ => false

/-- Reads a text from inside a line. `run` is the run of word characters that directly precedes
the symbols, with the minus sign that belongs to it, read backwards; it is empty outside code. -/
def scanFrom (mode : Mode) (run : List Char) (line : Nat) (symbols : List Symbol) : Scan :=
  match mode, symbols with
  | .code, [] => ⟨runToken run line, false⟩
  | mode, [] => ⟨[], mode = .blockComment⟩
  | .code, .lineEnd :: rest => .after (runToken run line) (scanFrom .code [] (line + 1) rest)
  | mode, .lineEnd :: rest => scanFrom mode.atLineEnd [] (line + 1) rest
  | .code, .char c :: rest =>
    if isWordChar c then scanFrom .code (c :: run) line rest
    else if run.reverse ∈ quoteCommands then scanFrom .payload [] line rest
    else
      match c, rest with
      | '/', .char '/' :: rest => .after (runToken run line) (scanFrom .lineComment [] line rest)
      | '/', .char '*' :: rest => .after (runToken run line) (scanFrom .blockComment [] line rest)
      | '"', rest => .after (runToken run line) (scanFrom .string [] line rest)
      | '-', rest =>
        .after (runToken run line) (scanFrom .code (if digitNext rest then ['-'] else []) line rest)
      | _, rest => .after (runToken run line) (scanFrom .code [] line rest)
  | .lineComment, .char _ :: rest => scanFrom .lineComment [] line rest
  | .string, .char c :: rest => scanFrom (if c = '"' then .code else .string) [] line rest
  | .payload, .char _ :: rest => scanFrom .payload [] line rest
  | .blockComment, .char '*' :: .char '/' :: rest => scanFrom .code [] line rest
  | .blockComment, .char _ :: rest => scanFrom .blockComment [] line rest

/-- The symbols of lines, each with its end. -/
def lineSymbols (lines : List (List Char)) : List Symbol :=
  lines.flatMap fun line => line.map .char ++ [.lineEnd]

/-- The symbols of a text, in which a line feed ends a line. -/
def textSymbols (text : List Char) : List Symbol :=
  text.map fun c => if c = '\n' then .lineEnd else .char c

/-- Reads a text from its first line. -/
def scan (symbols : List Symbol) : Scan := scanFrom .code [] 1 symbols

/-! ## Steps of the pass -/

variable {c : Char} {mode : Mode} {run : List Char} {line : Nat} {rest symbols : List Symbol}

attribute [local simp] scanFrom

@[simp] theorem after_nil (scan : Scan) : Scan.after [] scan = scan := rfl

@[simp] theorem runToken_nil (line : Nat) : runToken [] line = [] := rfl

theorem after_after (first second : List Token) (scan : Scan) :
    Scan.after first (Scan.after second scan) = Scan.after (first ++ second) scan := by
  simp [Scan.after]

theorem scanFrom_of_isWordChar (word : isWordChar c = true) :
    scanFrom .code run line (.char c :: rest) = scanFrom .code (c :: run) line rest := by
  rw [scanFrom.eq_def]
  exact if_pos word

theorem scanFrom_of_mem_quoteCommands (other : ¬isWordChar c = true)
    (quote : run.reverse ∈ quoteCommands) :
    scanFrom .code run line (.char c :: rest) = scanFrom .payload [] line rest := by
  rw [scanFrom.eq_def]
  exact (if_neg other).trans (if_pos quote)

theorem runToken_of_mem_quoteCommands (quote : run.reverse ∈ quoteCommands) (line : Nat) :
    runToken run line = [] := if_pos (.inr quote)

theorem scanFrom_lineComment (quote : run.reverse ∉ quoteCommands) :
    scanFrom .code run line (.char '/' :: .char '/' :: rest) =
      .after (runToken run line) (scanFrom .lineComment [] line rest) := by
  have other : ¬isWordChar '/' = true := by decide
  simp [other, quote]

theorem scanFrom_blockComment (quote : run.reverse ∉ quoteCommands) :
    scanFrom .code run line (.char '/' :: .char '*' :: rest) =
      .after (runToken run line) (scanFrom .blockComment [] line rest) := by
  have other : ¬isWordChar '/' = true := by decide
  simp [other, quote]

theorem scanFrom_string (quote : run.reverse ∉ quoteCommands) :
    scanFrom .code run line (.char '"' :: rest) =
      .after (runToken run line) (scanFrom .string [] line rest) := by
  have other : ¬isWordChar '"' = true := by decide
  simp [other, quote]

theorem scanFrom_minus (quote : run.reverse ∉ quoteCommands) :
    scanFrom .code run line (.char '-' :: rest) =
      .after (runToken run line)
        (scanFrom .code (if digitNext rest then ['-'] else []) line rest) := by
  have other : ¬isWordChar '-' = true := by decide
  simp [other, quote]

theorem scanFrom_of_not_delimiter (other : ¬isWordChar c = true)
    (quote : run.reverse ∉ quoteCommands)
    (lineComment : ∀ tail, c = '/' → rest = .char '/' :: tail → False)
    (blockComment : ∀ tail, c = '/' → rest = .char '*' :: tail → False)
    (string : c = '"' → False) (minus : c = '-' → False) :
    scanFrom .code run line (.char c :: rest) =
      .after (runToken run line) (scanFrom .code [] line rest) := by
  simp [other, quote]

theorem scanFrom_inBlockComment (inside : ∀ tail, rest = .char '/' :: tail → c = '*' → False) :
    scanFrom .blockComment run line (.char c :: rest) = scanFrom .blockComment [] line rest := by
  simp

/-- The rest of a line comment and of the free text after a quote command is skipped. -/
theorem scanFrom_skip (hidden : mode = .lineComment ∨ mode = .payload) (line : Nat)
    (rest : List Char) (symbols : List Symbol) :
    scanFrom mode [] line (rest.map .char ++ .lineEnd :: symbols) =
      scanFrom .code [] (line + 1) symbols := by
  induction rest with
  | nil => rcases hidden with rfl | rfl <;> rfl
  | cons c rest ih =>
    rw [← ih]
    rcases hidden with rfl | rfl <;> simp only [List.map_cons, List.cons_append, scanFrom]

/-! ## Blanks -/

/-- What comes next is no character, or a blank. -/
def Quiet (symbols : List Symbol) : Prop :=
  ∀ c, symbols.head? = some (.char c) → isBlank c = true

theorem quiet_nil : Quiet [] := by
  intro c head
  cases head

theorem quiet_lineEnd (symbols : List Symbol) : Quiet (.lineEnd :: symbols) := by
  intro c head
  cases head

theorem quiet_blank (blank : isBlank c = true) (symbols : List Symbol) :
    Quiet (.char c :: symbols) := by
  intro d head
  cases head
  exact blank

theorem digitNext_append (quiet : Quiet symbols) :
    digitNext (rest ++ symbols) = digitNext rest := by
  cases rest with
  | cons symbol rest => cases symbol <;> rfl
  | nil =>
    cases symbols with
    | nil => rfl
    | cons symbol symbols =>
      cases symbol with
      | lineEnd => rfl
      | char c => simpa [digitNext] using not_isDigit_of_isBlank (quiet c rfl)

/-- Something quiet completes no delimiter. -/
theorem append_ne_of_quiet (quiet : Quiet symbols) (delimiter : c ∈ ['-', '/', '*', '"'])
    (absent : ∀ tail, rest = .char c :: tail → False) (tail : List Symbol)
    (h : rest ++ symbols = .char c :: tail) : False := by
  cases rest with
  | nil =>
    rw [List.nil_append] at h
    subst h
    exact not_mem_delimiters_of_isBlank (quiet c rfl) delimiter
  | cons symbol rest =>
    rw [List.cons_append, List.cons.injEq] at h
    exact absent rest (by rw [h.1])

/-- Two quiet continuations that are read alike are read alike after anything. -/
theorem scanFrom_append_congr {first second : List Symbol} (quietFirst : Quiet first)
    (quietSecond : Quiet second)
    (same : ∀ mode run line, scanFrom mode run line first = scanFrom mode run line second)
    (mode : Mode) (run : List Char) (line : Nat) (symbols : List Symbol) :
    scanFrom mode run line (symbols ++ first) = scanFrom mode run line (symbols ++ second) := by
  fun_induction scanFrom mode run line symbols with
  | case1 => exact same ..
  | case2 => exact same ..
  | case3 run line rest ih => simp only [List.cons_append, scanFrom, ih]
  | case4 run line mode rest other ih => simp only [List.cons_append, scanFrom, ih]
  | case5 run line c rest word ih =>
    simpa only [List.cons_append, scanFrom_of_isWordChar word] using ih
  | case6 run line c rest other quote ih =>
    simpa only [List.cons_append, scanFrom_of_mem_quoteCommands other quote] using ih
  | case7 run line quote rest other ih =>
    simpa only [List.cons_append, scanFrom_lineComment quote] using congrArg (Scan.after _) ih
  | case8 run line quote rest other ih =>
    simpa only [List.cons_append, scanFrom_blockComment quote] using congrArg (Scan.after _) ih
  | case9 run line quote rest other ih =>
    simpa only [List.cons_append, scanFrom_string quote] using congrArg (Scan.after _) ih
  | case10 run line quote rest other ih =>
    simp only [List.cons_append, scanFrom_minus quote, digitNext_append quietFirst,
      digitNext_append quietSecond, ih]
  | case11 run line c other quote rest lineComment blockComment string minus ih =>
    -- `c` may be the last character, and what follows must not make a delimiter of it
    have skip : ∀ {symbols}, Quiet symbols →
        scanFrom .code run line (.char c :: (rest ++ symbols)) =
          .after (runToken run line) (scanFrom .code [] line (rest ++ symbols)) := by
      intro symbols quiet
      refine scanFrom_of_not_delimiter other quote ?_ ?_ string minus
      · intro tail slash
        exact append_ne_of_quiet quiet (by simp) (fun tail => lineComment tail slash) tail
      · intro tail slash
        exact append_ne_of_quiet quiet (by simp) (fun tail => blockComment tail slash) tail
    rw [List.cons_append, List.cons_append, skip quietFirst, skip quietSecond, ih]
  | case12 run line c rest ih => simp [ih]
  | case13 run line c rest ih => simp [ih]
  | case14 run line c rest ih => simp [ih]
  | case15 run line rest ih => simp [ih]
  | case16 run line c rest inside ih =>
    have skip : ∀ {symbols}, Quiet symbols →
        scanFrom .blockComment run line (.char c :: (rest ++ symbols)) =
          scanFrom .blockComment [] line (rest ++ symbols) := by
      intro symbols quiet
      refine scanFrom_inBlockComment fun tail h star => ?_
      exact append_ne_of_quiet quiet (by simp) (fun tail h => inside tail h star) tail h
    rw [List.cons_append, List.cons_append, skip quietFirst, skip quietSecond, ih]

theorem scanFrom_of_isBlank (blank : isBlank c = true) :
    scanFrom .code run line (.char c :: rest) =
      if run.reverse ∈ quoteCommands then scanFrom .payload [] line rest
      else .after (runToken run line) (scanFrom .code [] line rest) := by
  have other := not_isWordChar_of_isBlank blank
  have plain := not_mem_delimiters_of_isBlank blank
  simp only [List.mem_cons, not_or] at plain
  obtain ⟨minus, slash, -, string, -⟩ := plain
  by_cases quote : run.reverse ∈ quoteCommands
  · rw [if_pos quote, scanFrom_of_mem_quoteCommands other quote]
  · rw [if_neg quote]
    exact scanFrom_of_not_delimiter other quote (fun _ h => (slash h).elim)
      (fun _ h => (slash h).elim) string minus

theorem scanFrom_inBlockComment_of_isBlank (blank : isBlank c = true) :
    scanFrom .blockComment run line (.char c :: rest) = scanFrom .blockComment [] line rest := by
  refine scanFrom_inBlockComment fun _ _ star => ?_
  subst star
  exact not_mem_delimiters_of_isBlank blank (by simp)

/-- A blank that ends a line changes nothing. -/
theorem scanFrom_blank_lineEnd (blank : isBlank c = true) (mode : Mode) (run : List Char)
    (line : Nat) (symbols : List Symbol) :
    scanFrom mode run line (.char c :: .lineEnd :: symbols) =
      scanFrom mode run line (.lineEnd :: symbols) := by
  cases mode with
  | code =>
    rw [scanFrom_of_isBlank blank]
    split
    next quote => simp [runToken_of_mem_quoteCommands quote, Mode.atLineEnd]
    next => simp
  | lineComment => simp
  | string =>
    by_cases quote : c = '"'
    · simp [quote, Mode.atLineEnd]
    · simp [quote]
  | payload => simp
  | blockComment =>
    rw [scanFrom_inBlockComment_of_isBlank blank]
    simp

theorem scanFrom_blanks_lineEnd {blanks : List Char} (all : ∀ c ∈ blanks, isBlank c = true)
    (mode : Mode) (run : List Char) (line : Nat) (before symbols : List Symbol) :
    scanFrom mode run line (before ++ (blanks.map .char ++ .lineEnd :: symbols)) =
      scanFrom mode run line (before ++ .lineEnd :: symbols) := by
  induction blanks generalizing before with
  | nil => rfl
  | cons c blanks ih =>
    obtain ⟨blank, tail⟩ := List.forall_mem_cons.mp all
    rw [List.map_cons, List.cons_append, List.append_cons, ih tail, ← List.append_cons]
    exact scanFrom_append_congr (quiet_blank blank _) (quiet_lineEnd _)
      (fun mode run line => scanFrom_blank_lineEnd blank mode run line symbols) _ _ _ _

theorem scanFrom_blanks {blanks : List Char} (all : ∀ c ∈ blanks, isBlank c = true)
    (inComment : Bool) (line : Nat) (symbols : List Symbol) :
    scanFrom (Region.atStart inComment).mode [] line (blanks.map .char ++ symbols) =
      scanFrom (Region.atStart inComment).mode [] line symbols := by
  induction blanks with
  | nil => rfl
  | cons c blanks ih =>
    obtain ⟨blank, tail⟩ := List.forall_mem_cons.mp all
    rw [← ih tail]
    cases inComment with
    | false =>
      have hidden : ([] : List Char).reverse ∉ quoteCommands := by decide
      exact (scanFrom_of_isBlank blank).trans (if_neg hidden)
    | true => exact scanFrom_inBlockComment_of_isBlank blank

theorem scanFrom_trim (inComment : Bool) (line : Nat) (text : List Char) (symbols : List Symbol) :
    scanFrom (Region.atStart inComment).mode [] line (text.map .char ++ .lineEnd :: symbols) =
      scanFrom (Region.atStart inComment).mode [] line
        ((trim text).map .char ++ .lineEnd :: symbols) := by
  obtain ⟨before, after, allBefore, allAfter, split⟩ := exists_append_trim_append text
  have whole : text.map Symbol.char =
      before.map .char ++ ((trim text).map .char ++ after.map .char) := by
    rw [← List.map_append, ← List.map_append, split]
  rw [whole, List.append_assoc, List.append_assoc, scanFrom_blanks allBefore,
    scanFrom_blanks_lineEnd allAfter]

/-! ## One line -/

/-- A run under construction: word characters that follow at most a minus sign, which belongs to
them when a digit comes after it. All of it is read backwards. -/
structure Pending (minus word rest : List Char) : Prop where
  letters : ∀ c ∈ word, isWordChar c = true
  sign : minus = [] ∨ minus = ['-'] ∧ startsNumber '-' (word.reverse ++ rest) = true

theorem Pending.none (rest : List Char) : Pending [] [] rest where
  letters := by simp
  sign := .inl rfl

theorem Pending.cons {minus word rest : List Char} (pending : Pending minus word (c :: rest))
    (letter : isWordChar c = true) : Pending minus (c :: word) rest where
  letters := List.forall_mem_cons.mpr ⟨letter, pending.letters⟩
  sign := by
    rw [List.reverse_cons, List.append_assoc]
    exact pending.sign

theorem Pending.ofMinus (c : Char) (rest : List Char) :
    Pending (if startsNumber c rest then [c] else []) [] rest where
  letters := by simp
  sign := by
    split
    next starts =>
      have minus : c = '-' := by
        simp only [startsNumber, Bool.and_eq_true, decide_eq_true_eq] at starts
        exact starts.1
      subst minus
      exact .inr ⟨rfl, starts⟩
    next => exact .inl rfl

section Run

variable {minus word : List Char} {tail : List Char}

/-- A quote command has no minus sign. -/
theorem Pending.reverse_mem_quoteCommands_iff (pending : Pending minus word tail) :
    (word ++ minus).reverse ∈ quoteCommands ↔ minus = [] ∧ word.reverse ∈ quoteCommands := by
  rcases pending.sign with rfl | ⟨rfl, -⟩
  · simp
  · have unsigned : ∀ word, '-' :: word ∉ quoteCommands := by simp [quoteCommands]
    simp [unsigned]

/-- A number is no quote command. -/
theorem Pending.minus_eq_nil (pending : Pending minus word tail)
    (quote : word.reverse ∈ quoteCommands) : minus = [] := by
  rcases pending.sign with rfl | ⟨-, starts⟩
  · rfl
  · rw [startsNumber_of_mem_quoteCommands quote] at starts
    cases starts

theorem Pending.visible (pending : Pending minus word tail)
    (visible : word.reverse ∉ quoteCommands) : (word ++ minus).reverse ∉ quoteCommands := by
  intro quote
  exact visible (pending.reverse_mem_quoteCommands_iff.mp quote).2

theorem runToken_eq_map (visible : run.reverse ∉ quoteCommands) (line : Nat) :
    runToken run line = (finishWord run).map (Token.mk · line) := by
  unfold runToken finishWord
  cases run with
  | nil => rfl
  | cons c run =>
    rw [if_neg (not_or.mpr ⟨List.cons_ne_nil c run, visible⟩)]
    rfl

/-- The words of a kept text begin with the finished run. -/
theorem Pending.wordsFrom_eq (pending : Pending minus word tail) (text : List Char) :
    wordsFrom minus (word.reverse ++ text) = wordsFrom (word ++ minus) text := by
  have letters : ∀ c ∈ word.reverse, isWordChar c = true := by simpa using pending.letters
  rw [wordsFrom_append_of_isWordChar letters, List.reverse_reverse]

theorem Pending.map_words (pending : Pending minus word tail)
    (visible : word.reverse ∉ quoteCommands) (line : Nat) :
    (wordsFrom minus word.reverse).map (Token.mk · line) = runToken (word ++ minus) line := by
  rw [runToken_eq_map (pending.visible visible), ← List.append_nil word.reverse,
    pending.wordsFrom_eq, wordsFrom]

theorem Pending.map_words_cons (pending : Pending minus word tail)
    (visible : word.reverse ∉ quoteCommands) (other : ¬isWordChar c = true) (text : List Char)
    (line : Nat) :
    (wordsFrom minus (word.reverse ++ c :: text)).map (Token.mk · line) =
      runToken (word ++ minus) line ++
        (wordsFrom (if startsNumber c text then [c] else []) text).map (Token.mk · line) := by
  rw [runToken_eq_map (pending.visible visible), pending.wordsFrom_eq, wordsFrom, if_neg other,
    List.map_append]

end Run

theorem digitNext_map (rest : List Char) (symbols : List Symbol) :
    digitNext (rest.map .char ++ .lineEnd :: symbols) = startsNumber '-' rest := by
  cases rest with
  | nil => rfl
  | cons c rest => simp [digitNext, startsNumber]

theorem exists_cons_of_map_eq_cons {rest : List Char} {tail : List Symbol}
    (h : rest.map .char ++ .lineEnd :: symbols = .char c :: tail) : ∃ tail, rest = c :: tail := by
  cases rest with
  | nil => cases h
  | cons d rest =>
    cases h
    exact ⟨rest, rfl⟩

/-- The words of what is kept are what the pass finds up to the end of the line. -/
theorem scanFrom_keptFrom (region : Region) (minus word rest : List Char) (line : Nat)
    (symbols : List Symbol) (pending : Pending minus word rest)
    (outside : region ≠ .code → minus = []) :
    scanFrom region.mode (word ++ minus) line (rest.map .char ++ .lineEnd :: symbols) =
      .after ((wordsFrom minus (keptFrom region word rest).text).map (Token.mk · line))
        (scanFrom (Region.atStart (keptFrom region word rest).inComment).mode [] (line + 1)
          symbols) := by
  fun_induction keptFrom region word rest generalizing minus with
  | case1 word =>
    change Scan.after (runToken (word ++ minus) line) (scanFrom .code [] (line + 1) symbols) = _
    by_cases quote : word.reverse ∈ quoteCommands
    · obtain rfl := pending.minus_eq_nil quote
      rw [List.append_nil, runToken_of_mem_quoteCommands quote]
      simp [quote, wordsFrom, finishWord, Region.atStart, Region.mode]
    · rw [← pending.map_words quote]
      simp [quote, Region.atStart, Region.mode]
  | case2 word c rest letter ih =>
    rw [← ih minus (pending.cons letter) outside]
    exact scanFrom_of_isWordChar letter
  | case3 word c rest other quote =>
    obtain rfl := pending.minus_eq_nil quote
    rw [List.append_nil]
    exact (scanFrom_of_mem_quoteCommands other quote).trans (scanFrom_skip (.inr rfl) ..)
  | case4 word quote tail other =>
    rw [pending.map_words quote]
    refine (scanFrom_lineComment (pending.visible quote)).trans (congrArg (Scan.after _) ?_)
    exact scanFrom_skip (.inl rfl) ..
  | case5 word quote rest kept other ih =>
    rw [pending.map_words_cons quote (by decide), ← after_after]
    refine (scanFrom_blockComment (pending.visible quote)).trans (congrArg (Scan.after _) ?_)
    exact ih [] (.none rest) (fun _ => rfl)
  | case6 word quote rest kept other ih =>
    rw [pending.map_words_cons quote (by decide), ← after_after]
    refine (scanFrom_string (pending.visible quote)).trans (congrArg (Scan.after _) ?_)
    exact ih [] (.none rest) (fun _ => rfl)
  | case7 word quote c rest lineComment blockComment string kept other ih =>
    -- splitting looks for the digit in what is kept, the pass in what is written
    have starts : startsNumber c kept.text = startsNumber c rest := startsNumber_keptFrom c [] rest
    rw [pending.map_words_cons quote other, ← after_after, starts]
    have found := ih (if startsNumber c rest then [c] else []) (.ofMinus c rest) (absurd rfl)
    refine Eq.trans ?_ (congrArg (Scan.after _) found)
    by_cases sign : c = '-'
    · subst sign
      have step : scanFrom .code (word ++ minus) line
          (.char '-' :: (rest.map .char ++ .lineEnd :: symbols)) = _ :=
        scanFrom_minus (pending.visible quote)
      rw [digitNext_map] at step
      exact step
    · have unsigned : startsNumber c rest = false := by simp [startsNumber, sign]
      rw [unsigned]
      refine scanFrom_of_not_delimiter other (pending.visible quote) ?_ ?_ string sign
      · intro tail slash follows
        obtain ⟨tail, rest_eq⟩ := exists_cons_of_map_eq_cons follows
        exact lineComment tail slash rest_eq
      · intro tail slash follows
        obtain ⟨tail, rest_eq⟩ := exists_cons_of_map_eq_cons follows
        exact blockComment tail slash rest_eq
  | case8 word =>
    obtain rfl := outside (by decide)
    exact after_nil _
  | case9 word c rest ih =>
    obtain rfl := outside (by decide)
    refine Eq.trans ?_ (ih [] (.none rest) (fun _ => rfl))
    -- the quote that closes the string is skipped like any other character
    change scanFrom (if c = '"' then .code else .string) [] line
      (rest.map .char ++ .lineEnd :: symbols) = _
    split <;> rfl
  | case10 word rest ih =>
    obtain rfl := outside (by decide)
    exact ih [] (.none rest) (fun _ => rfl)
  | case11 word c rest inside ih =>
    obtain rfl := outside (by decide)
    refine Eq.trans ?_ (ih [] (.none rest) (fun _ => rfl))
    refine scanFrom_inBlockComment fun tail follows star => ?_
    obtain ⟨tail, rest_eq⟩ := exists_cons_of_map_eq_cons follows
    exact inside tail star rest_eq
  | case12 word =>
    obtain rfl := outside (by decide)
    exact after_nil _

theorem scanFrom_line (inComment : Bool) (text : List Char) (line : Nat) (symbols : List Symbol) :
    scanFrom (Region.atStart inComment).mode [] line (text.map .char ++ .lineEnd :: symbols) =
      .after (lineTokens (clean inComment text).text line)
        (scanFrom (Region.atStart (clean inComment text).inComment).mode [] (line + 1)
          symbols) := by
  rw [scanFrom_trim, lineTokens, words_clean, inComment_clean]
  exact scanFrom_keptFrom _ [] [] _ line symbols (.none _) (fun _ => rfl)

/-! ## Lines and texts -/

/-- Whether a block comment is open after some lines. -/
def inCommentAfter (inComment : Bool) (lines : List (List Char)) : Bool :=
  lines.foldl (fun inComment line => (clean inComment line).inComment) inComment

theorem scanFrom_lineSymbols (inComment : Bool) (lines : List (List Char)) (line : Nat) :
    scanFrom (Region.atStart inComment).mode [] line (lineSymbols lines) =
      ⟨((cleanLines inComment lines).zipIdx line).flatMap
          fun (text, number) => lineTokens text number,
        inCommentAfter inComment lines⟩ := by
  induction lines generalizing inComment line with
  | nil => cases inComment <;> rfl
  | cons text lines ih =>
    have split : lineSymbols (text :: lines) = text.map .char ++ .lineEnd :: lineSymbols lines := by
      simp [lineSymbols]
    rw [split, scanFrom_line, ih]
    rfl

/-- The ending of a last line changes nothing. -/
theorem scanFrom_lineEnd (mode : Mode) (run : List Char) (line : Nat) :
    scanFrom mode run line [.lineEnd] = scanFrom mode run line [] := by
  cases mode with
  | code => simp [Scan.after]
  | lineComment => rfl
  | string => rfl
  | payload => rfl
  | blockComment => rfl

/-- A carriage return that belongs to the ending of a line changes nothing. -/
theorem scanFrom_finishLine (mode : Mode) (run : List Char) (line : Nat) (before : List Char)
    (symbols : List Symbol) :
    scanFrom mode run line ((finishLine before).map .char ++ .lineEnd :: symbols) =
      scanFrom mode run line (before.reverse.map .char ++ .lineEnd :: symbols) := by
  unfold finishLine
  split
  next before =>
    have blanks : ∀ c ∈ ['\r'], isBlank c = true := by simp [isBlank, blankRanges]
    rw [← scanFrom_blanks_lineEnd blanks]
    simp
  next => rfl

theorem scanFrom_linesFrom (mode : Mode) (run : List Char) (line : Nat)
    (before text : List Char) :
    scanFrom mode run line (lineSymbols (linesFrom before text)) =
      scanFrom mode run line (before.reverse.map .char ++ textSymbols text) := by
  induction text generalizing mode run line before with
  | nil =>
    cases before with
    | nil => rfl
    | cons c before =>
      have last := scanFrom_append_congr (quiet_lineEnd []) quiet_nil scanFrom_lineEnd mode run line
        ((c :: before).reverse.map .char)
      simpa [linesFrom, finishRun, lineSymbols, textSymbols] using last
  | cons c text ih =>
    by_cases feed : c = '\n'
    · have first : lineSymbols (linesFrom before (c :: text)) =
          (finishLine before).map .char ++ .lineEnd :: lineSymbols (linesFrom [] text) := by
        simp [linesFrom, feed, lineSymbols]
      have symbols : textSymbols (c :: text) = .lineEnd :: textSymbols text := by
        simp [textSymbols, feed]
      rw [first, symbols, scanFrom_finishLine]
      refine scanFrom_append_congr (quiet_lineEnd _) (quiet_lineEnd _) (fun mode run line => ?_) ..
      have rest := ih mode.atLineEnd [] (line + 1) []
      cases mode with
      | code => exact congrArg (Scan.after (runToken run line)) rest
      | lineComment => exact rest
      | string => exact rest
      | payload => exact rest
      | blockComment => exact rest
    · rw [linesFrom, if_neg feed, ih]
      simp [textSymbols, feed]

/-- Over lines and over a whole text, one pass finds the tokens of the cleaned lines and ends
inside a block comment exactly when cleaning does. -/
theorem scan_eq_tokens :
    (∀ lines : List (List Char),
      scan (lineSymbols lines) =
        ⟨(numbered (cleanLines false lines)).flatMap fun (line, number) => lineTokens line number,
          inCommentAfter false lines⟩) ∧
    ∀ text : String,
      scan (textSymbols text.toList) = ⟨tokens text, inCommentAfter false (lines text)⟩ := by
  have whole := fun lines => scanFrom_lineSymbols false lines 1
  refine ⟨whole, fun text => ?_⟩
  have read := scanFrom_linesFrom .code [] 1 [] text.toList
  exact read.symm.trans (whole (lines text))

example : scan (textSymbols "a/*\n*/-4 qputs/*\n5".toList) =
    ⟨[⟨"a", 1⟩, ⟨"-4", 2⟩, ⟨"5", 3⟩], false⟩ := by
  cbv

end TileCensus.Script
