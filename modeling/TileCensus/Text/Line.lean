import TileCensus.Text.CharClass

/-!
# Lines and fields

How a text splits into lines, and a line into fields. A line ends at a line feed, and a carriage
return directly before that line feed belongs to the ending; an unfinished last line is kept as
it stands, an empty one is no line. Fields are the maximal runs of characters that are not blank.
-/

namespace TileCensus.Text

/-! ## Trimming -/

/-- A line without the blanks it ends with. -/
def trimEnd (line : List Char) : List Char := (line.reverse.dropWhile isBlank).reverse

/-- A line without the blanks around it. -/
def trim (line : List Char) : List Char := trimEnd (line.dropWhile isBlank)

/-! ## Runs -/

/-- A run under construction, read backwards, as a list of at most one finished run. -/
def finishRun (run : List Char) : List (List Char) := if run.isEmpty then [] else [run.reverse]

theorem mem_finishRun_iff {run finished : List Char} :
    finished ∈ finishRun run ↔ run ≠ [] ∧ finished = run.reverse := by
  cases run <;> simp [finishRun]

/-- The maximal runs of characters in a class, after the unfinished `run`. -/
def runsFrom (keep : Char → Bool) (run : List Char) : List Char → List (List Char)
  | [] => finishRun run
  | c :: rest =>
    if keep c then runsFrom keep (c :: run) rest else finishRun run ++ runsFrom keep [] rest

/-- The maximal runs of characters that are not blank. -/
def fields (line : List Char) : List (List Char) := runsFrom (fun c => !isBlank c) [] line

theorem takeWhile_append_of_ended {keep : Char → Bool} {run after : List Char}
    (kept : ∀ c ∈ run, keep c = true) (ended : ∀ c ∈ after.head?, ¬keep c = true) :
    (run ++ after).takeWhile keep = run := by
  have none : after.takeWhile keep = [] := by
    cases after with
    | nil => rfl
    | cons c after => exact List.takeWhile_cons_of_neg (ended c rfl)
  rw [List.takeWhile_append_of_pos kept, none, List.append_nil]

/-- A line begins with a run of one character or more, which a character outside the class ends. -/
theorem exists_run_iff {keep : Char → Bool} {line rest : List Char} {c : Char}
    (other : ¬keep c = true) :
    line.takeWhile keep ≠ [] ∧ line.dropWhile keep = c :: rest ↔
      ∃ run, run ≠ [] ∧ (∀ d ∈ run, keep d = true) ∧ line = run ++ c :: rest := by
  constructor
  · rintro ⟨nonempty, follows⟩
    refine ⟨_, nonempty, List.all_eq_true.mp List.all_takeWhile, ?_⟩
    rw [← follows, List.takeWhile_append_dropWhile]
  · rintro ⟨run, nonempty, kept, rfl⟩
    rw [takeWhile_append_of_ended kept (by simpa using other), List.dropWhile_append_of_pos kept,
      List.dropWhile_cons_of_neg other]
    exact ⟨nonempty, rfl⟩

theorem runsFrom_eq_nil_iff {keep : Char → Bool} {run line : List Char} :
    runsFrom keep run line = [] ↔ run = [] ∧ ∀ c ∈ line, keep c = false := by
  induction line generalizing run with
  | nil => simp [runsFrom, finishRun]
  | cons c rest ih =>
    rw [runsFrom, List.forall_mem_cons]
    split
    next keeps => simp [ih, keeps]
    next skips => simp [ih, skips, finishRun]

/-- A line without fields is blank throughout. -/
theorem fields_eq_nil_iff {line : List Char} : fields line = [] ↔ ∀ c ∈ line, isBlank c = true := by
  simp [fields, runsFrom_eq_nil_iff]

theorem runsFrom_eq_splitOnPPrepend (keep : Char → Bool) (run line : List Char) :
    runsFrom keep run line =
      (line.splitOnPPrepend (fun c => !keep c) run).filter fun piece => !piece.isEmpty := by
  have finish (run : List Char) :
      finishRun run = [run.reverse].filter fun piece => !piece.isEmpty := by
    cases run <;> simp [finishRun]
  induction line generalizing run with
  | nil => rw [runsFrom, List.splitOnPPrepend_nil, finish]
  | cons c line ih =>
    rw [runsFrom, List.splitOnPPrepend_cons_eq_if, ih, ih, finish]
    cases keep c with
    | true => rfl
    | false => exact (List.filter_append ..).symm

/-- The fields of a line are its pieces between two blanks, but for the empty ones. -/
theorem fields_eq_splitOnP (line : List Char) :
    fields line = (line.splitOnP isBlank).filter fun piece => !piece.isEmpty := by
  rw [fields, runsFrom_eq_splitOnPPrepend, List.splitOnP_eq_splitOnPPrepend]
  simp only [Bool.not_not]

/-- Runs lose nothing but what is outside their class. -/
theorem flatten_runsFrom (keep : Char → Bool) (run line : List Char) :
    (runsFrom keep run line).flatten = run.reverse ++ line.filter keep := by
  have finish (run : List Char) : (finishRun run).flatten = run.reverse := by
    cases run <;> simp [finishRun]
  induction line generalizing run with
  | nil => rw [runsFrom, finish, List.filter_nil, List.append_nil]
  | cons c line ih =>
    rw [runsFrom]
    split
    next keeps =>
      rw [ih, List.filter_cons_of_pos keeps, List.reverse_cons, List.append_assoc]
      rfl
    next drops =>
      rw [List.flatten_append, finish, ih, List.filter_cons_of_neg drops]
      rfl

/-! ## Lines -/

/-- A line under construction, read backwards, whose line feed has been met. -/
def finishLine : List Char → List Char
  | '\r' :: line => line.reverse
  | line => line.reverse

/-- The lines of a text, after the unfinished `line`. -/
def linesFrom (line : List Char) : List Char → List (List Char)
  | [] => finishRun line
  | c :: rest =>
    if c = '\n' then finishLine line :: linesFrom [] rest else linesFrom (c :: line) rest

/-- The lines of a text. -/
def lines (text : String) : List (List Char) := linesFrom [] text.toList

/-- Lines with their numbers, counted from one. -/
def numbered (lines : List (List Char)) : List (List Char × Nat) := lines.zipIdx 1

end TileCensus.Text
