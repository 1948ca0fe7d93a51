import TileCensus.Proofs.TableNames

/-!
# Words and the lines they make

Words that are joined by single spaces are read back as they are, and what is read from any line is
words (`words_join`). So reading a line and joining its words gives a line in which reading finds
the same words.
-/

namespace TileCensus.Script

open Text

theorem finishWord_reverse {word : List Char} (nonempty : word ≠ []) :
    finishWord word.reverse = [String.ofList word] := by
  simp [finishWord, nonempty]

/-- Word characters up to the end of a line finish the word they belong to. -/
theorem wordsFrom_of_isWordChar {run word : List Char} (letters : ∀ c ∈ word, isWordChar c = true) :
    wordsFrom run word = finishWord (word.reverse ++ run) := by
  rw [← List.append_nil word, wordsFrom_append_of_isWordChar letters, List.append_nil, wordsFrom]

/-- A line that is a word has this word and no other. -/
theorem IsWord.words_toList {word : String} (isWord : IsWord word) : words word.toList = [word] := by
  rcases isWord with ⟨nonempty, letters⟩ | ⟨digit, rest, signed, starts, letters⟩
  · rw [words, wordsFrom_of_isWordChar letters, List.append_nil, finishWord_reverse nonempty,
      String.ofList_toList]
  · have letters : ∀ c ∈ digit :: rest, isWordChar c = true :=
      List.forall_mem_cons.mpr ⟨isWordChar_of_isDigit starts, letters⟩
    have sign : words ('-' :: digit :: rest) = wordsFrom ['-'] (digit :: rest) := by
      have other : ¬isWordChar '-' = true := by decide
      have number : startsNumber '-' (digit :: rest) = true := by simp [startsNumber, starts]
      rw [words, wordsFrom, if_neg other, if_pos number]
      rfl
    have back : (digit :: rest).reverse ++ ['-'] = word.toList.reverse := by simp [signed]
    rw [signed, sign, wordsFrom_of_isWordChar letters, back, finishWord_reverse (by simp [signed]),
      String.ofList_toList]

theorem words_intercalate {listed : List String} (all : ∀ word ∈ listed, IsWord word) :
    words (" ".intercalate listed).toList = listed := by
  induction listed with
  | nil => rfl
  | cons word listed ih =>
    obtain ⟨isWord, all⟩ := List.forall_mem_cons.mp all
    cases listed with
    | nil => simpa using isWord.words_toList
    | cons next listed =>
      have joined : (" ".intercalate (word :: next :: listed)).toList =
          word.toList ++ ' ' :: (" ".intercalate (next :: listed)).toList := by
        simp [String.intercalate_cons_cons]
      have blank : isBlank ' ' = true := by decide
      rw [joined, words, wordsFrom_append_cons_of_isBlank blank, ih all]
      exact congrArg (· ++ next :: listed) isWord.words_toList

/-- Joining words by spaces and reading a line undo each other on words: words are read back from
the line that they make, and a line has the same words as the line that its words make. -/
theorem words_join :
    (∀ listed : List String, (∀ word ∈ listed, IsWord word) →
      words (" ".intercalate listed).toList = listed) ∧
    ∀ line : List Char, (∀ word ∈ words line, IsWord word) ∧
      words (" ".intercalate (words line)).toList = words line := by
  refine ⟨fun listed => words_intercalate, fun line => ?_⟩
  have all : ∀ word ∈ words line, IsWord word := fun word => isWord_of_mem_words
  exact ⟨all, words_intercalate all⟩

/-- A number right behind a word is a word of its own, also after it is joined with the others. -/
theorem words_join_signed :
    (∀ word ∈ ["sizeat", "20", "-4", "_x9"], IsWord word) ∧
      words (" ".intercalate ["sizeat", "20", "-4", "_x9"]).toList =
        ["sizeat", "20", "-4", "_x9"] ∧
      words "sizeat 20-4(_x9)--".toList = ["sizeat", "20", "-4", "_x9"] := by
  obtain ⟨readBack, ofLine⟩ := words_join
  have read : words "sizeat 20-4(_x9)--".toList = ["sizeat", "20", "-4", "_x9"] := by cbv
  obtain ⟨all, -⟩ := ofLine "sizeat 20-4(_x9)--".toList
  rw [read] at all
  exact ⟨all, readBack _ all, read⟩

end TileCensus.Script
