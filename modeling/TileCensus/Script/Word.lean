import TileCensus.Script.Clean

/-!
# Words

What is left of a line after cleaning is split into words: runs of ASCII letters, digits and
underscores. A minus sign directly before a digit begins a word, so `20-4` is the two words `20`
and `-4`. All other characters separate words and are dropped. A token is a word with the number
of its line, which is counted without a bound: texts are taken to have fewer than 2^32 lines, so a
count of 32 bits would be the same.
-/

namespace TileCensus.Script

open Text

/-! ## Words of a line -/

/-- Whether `c`, met outside a word character run and followed by `rest`, begins a number. -/
def startsNumber (c : Char) (rest : List Char) : Bool :=
  c = '-' && (rest.head?.map Char.isDigit).getD false

/-- A word under construction, read backwards, as a list of at most one finished word. -/
def finishWord (word : List Char) : List String :=
  if word.isEmpty then [] else [String.ofList word.reverse]

theorem mem_finishWord_iff {word : List Char} {finished : String} :
    finished ∈ finishWord word ↔ word ≠ [] ∧ finished = String.ofList word.reverse := by
  cases word <;> simp [finishWord]

/-- The words of a line, after the unfinished `word`. -/
def wordsFrom (word : List Char) : List Char → List String
  | [] => finishWord word
  | c :: rest =>
    if isWordChar c then wordsFrom (c :: word) rest
    else finishWord word ++ wordsFrom (if startsNumber c rest then [c] else []) rest

/-- The words of a line. -/
def words (line : List Char) : List String := wordsFrom [] line

/-! ## Tokens of a text -/

/-- A word and the number of its line. -/
structure Token where
  word : String
  line : Nat
deriving DecidableEq, Repr

/-- The tokens of one cleaned line. -/
def lineTokens (line : List Char) (number : Nat) : List Token :=
  (words line).map fun word => ⟨word, number⟩

/-- The cleaned lines of a text with their numbers. -/
def cleanedText (text : String) : List (List Char × Nat) := numbered (cleanLines false (lines text))

/-- The tokens of a text. -/
def tokens (text : String) : List Token :=
  (cleanedText text).flatMap fun (line, number) => lineTokens line number

end TileCensus.Script
