import TileCensus.Definition.Token

/-!
# Tokens of a line of definitions

A line of definitions is read in one pass with a word under construction. What comes out is said
here without the pass: put a space on both sides of every brace (`spaced`), cut at every blank and
keep what is not empty (`lineWords_eq_fields`, `fields_eq_splitOnP`).

So the words of a line are all of it but its blanks, in order, none of them is empty, and a brace is
a word of its own wherever it stands (`lineTokens_exact`).
-/

namespace TileCensus.Definition

open Text Script

/-! ## Words of a line -/

theorem not_isBlank_of_isBrace {c : Char} (brace : isBrace c = true) : ¬isBlank c = true := by
  obtain rfl | rfl : c = '\x7b' ∨ c = '\x7d' := by simpa [isBrace] using brace
  · decide
  · decide

/-- A line with a space on both sides of every brace. -/
def spaced (line : List Char) : List Char :=
  line.flatMap fun c => if isBrace c then [' ', c, ' '] else [c]

theorem filter_spaced (line : List Char) :
    (spaced line).filter (fun c => !isBlank c) = line.filter fun c => !isBlank c := by
  have space : isBlank ' ' = true := by decide
  induction line with
  | nil => rfl
  | cons c line ih =>
    rw [spaced, List.flatMap_cons, ← spaced, List.filter_append, ih]
    split
    next brace => simp [space, not_isBlank_of_isBrace brace]
    next => cases visible : isBlank c <;> simp [visible]

theorem lineWordsFrom_eq_runsFrom (word line : List Char) :
    lineWordsFrom word line =
      (runsFrom (fun c => !isBlank c) word (spaced line)).map String.ofList := by
  have finish (word : List Char) : finishWord word = (finishRun word).map String.ofList := by
    cases word <;> rfl
  have space : isBlank ' ' = true := by decide
  induction line generalizing word with
  | nil => exact finish word
  | cons c line ih =>
    rw [lineWordsFrom, spaced, List.flatMap_cons, ← spaced]
    split
    next brace =>
      have visible := not_isBlank_of_isBrace brace
      -- the space in front of the brace ends the word, the one behind it ends the brace
      simp [runsFrom, space, visible, finish, ih, finishRun]
    next =>
      split
      next blank => simp [runsFrom, blank, finish, ih]
      next visible => simp [runsFrom, visible, ih]

/-- The words of a line are the fields of the line with its braces spaced out. -/
theorem lineWords_eq_fields (line : List Char) :
    lineWords line = (fields (spaced line)).map String.ofList :=
  lineWordsFrom_eq_runsFrom [] line

theorem flatMap_toList_lineWords (line : List Char) :
    (lineWords line).flatMap String.toList = line.filter fun c => !isBlank c := by
  have letters : String.toList ∘ String.ofList = id := funext fun _ => String.toList_ofList
  rw [lineWords_eq_fields, List.flatMap_def, List.map_map, letters, List.map_id, fields,
    flatten_runsFrom, List.reverse_nil, List.nil_append, filter_spaced]

/-- A word of a line is a brace, or it is not empty and has no brace and no blank in it. -/
theorem mem_lineWordsFrom_cases {run line : List Char} {word : String}
    (plain : ∀ c ∈ run, ¬isBrace c = true ∧ ¬isBlank c = true)
    (mem : word ∈ lineWordsFrom run line) :
    (∃ c, isBrace c = true ∧ word = String.singleton c) ∨
      word ≠ "" ∧ ∀ c ∈ word.toList, ¬isBrace c = true ∧ ¬isBlank c = true := by
  have finish {run : List Char} (plain : ∀ c ∈ run, ¬isBrace c = true ∧ ¬isBlank c = true)
      (mem : word ∈ finishWord run) :
      word ≠ "" ∧ ∀ c ∈ word.toList, ¬isBrace c = true ∧ ¬isBlank c = true := by
    obtain ⟨nonempty, rfl⟩ := mem_finishWord_iff.mp mem
    refine ⟨by simpa [← String.toList_inj] using nonempty, ?_⟩
    simpa using plain
  induction line generalizing run with
  | nil => exact .inr (finish plain mem)
  | cons c line ih =>
    rw [lineWordsFrom] at mem
    split at mem
    next brace =>
      obtain mem | mem := List.mem_append.mp mem
      · exact .inr (finish plain mem)
      obtain rfl | mem := List.mem_cons.mp mem
      · exact .inl ⟨c, brace, rfl⟩
      · exact ih (by simp) mem
    next other =>
      split at mem
      next =>
        obtain mem | mem := List.mem_append.mp mem
        · exact .inr (finish plain mem)
        · exact ih (by simp) mem
      next visible => exact ih (List.forall_mem_cons.mpr ⟨⟨other, visible⟩, plain⟩) mem

theorem ne_empty_of_mem_lineWords {line : List Char} {word : String} (mem : word ∈ lineWords line) :
    word ≠ "" := by
  obtain ⟨c, -, rfl⟩ | ⟨nonempty, -⟩ := mem_lineWordsFrom_cases (by simp) mem
  · simp [← String.toList_inj]
  · exact nonempty

theorem eq_singleton_of_mem_lineWords {line : List Char} {word : String} {c : Char}
    (mem : word ∈ lineWords line) (brace : isBrace c = true) (found : c ∈ word.toList) :
    word = String.singleton c := by
  obtain ⟨d, -, rfl⟩ | ⟨-, plain⟩ := mem_lineWordsFrom_cases (by simp) mem
  · obtain rfl : c = d := by simpa using found
    rfl
  · exact absurd brace (plain c found).1

/-! ## Tokens of a line -/

/-- The tokens of a line are what is left between the blanks after each brace was put between two
spaces. Put together they are the line without its blanks, so nothing is lost, doubled or joined:
none of them is empty, and one with a brace in it is this brace. All have the number of the line. -/
theorem lineTokens_exact (line : List Char) (number : Nat) :
    (lineTokens line number).map Token.word =
        (((spaced line).splitOnP isBlank).filter fun piece => !piece.isEmpty).map String.ofList ∧
      (lineTokens line number).flatMap (fun token => token.word.toList) =
        line.filter (fun c => !isBlank c) ∧
      ∀ token ∈ lineTokens line number, token.word ≠ "" ∧ token.line = number ∧
        ∀ c ∈ token.word.toList, isBrace c = true → token.word = String.singleton c := by
  refine ⟨?_, ?_, ?_⟩
  · have words : (lineTokens line number).map Token.word = lineWords line := by
      rw [lineTokens, List.map_map]
      exact List.map_id _
    rw [words, lineWords_eq_fields, fields_eq_splitOnP]
  · rw [lineTokens, List.flatMap_map]
    exact flatMap_toList_lineWords line
  · intro token mem
    obtain ⟨word, listed, rfl⟩ := List.mem_map.mp mem
    exact ⟨ne_empty_of_mem_lineWords listed, rfl,
      fun c found brace => eq_singleton_of_mem_lineWords listed brace found⟩

/-- A line whose braces touch words and each other, with a tab and a wide space. -/
def touchingBraces : List Char := "voxel\t\x7bscale 1.0\u3000tile 18\x7d\x7d".toList

/-- Every brace of the line is a token, and the blanks are all that is dropped. -/
theorem lineTokens_exact_touchingBraces :
    (⟨"\x7b", 3⟩ ∈ lineTokens touchingBraces 3 ∧ '\x7b' ∈ "\x7b".toList ∧ isBrace '\x7b' = true ∧
        "\x7b" = String.singleton '\x7b') ∧
      (lineTokens touchingBraces 3).map Token.word =
        ["voxel", "\x7b", "scale", "1.0", "tile", "18", "\x7d", "\x7d"] ∧
      (lineTokens touchingBraces 3).flatMap (fun token => token.word.toList) =
        "voxel\x7bscale1.0tile18\x7d\x7d".toList := by
  obtain ⟨words, together, each⟩ := lineTokens_exact touchingBraces 3
  have opens : ⟨"\x7b", 3⟩ ∈ lineTokens touchingBraces 3 := by decide
  obtain ⟨-, -, alone⟩ := each _ opens
  refine ⟨⟨opens, by decide, rfl, alone '\x7b' (by decide) rfl⟩, words.trans ?_, together.trans ?_⟩
  · decide
  · decide

end TileCensus.Definition
