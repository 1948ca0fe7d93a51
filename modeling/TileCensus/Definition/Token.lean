import TileCensus.Script.Word

/-!
# Definition tokens

A cleaned line of a definitions file is split at blanks, and a brace is a token of its own
wherever it stands. Nothing but blanks is dropped.
-/

namespace TileCensus.Definition

open Text Script

/-- Whether a character is a brace. -/
def isBrace (c : Char) : Bool := c = '\x7b' || c = '\x7d'

/-- The token words of a line, after the unfinished `word`. -/
def lineWordsFrom (word : List Char) : List Char → List String
  | [] => finishWord word
  | c :: rest =>
    if isBrace c then finishWord word ++ String.singleton c :: lineWordsFrom [] rest
    else if isBlank c then finishWord word ++ lineWordsFrom [] rest
    else lineWordsFrom (c :: word) rest

/-- The token words of a line. -/
def lineWords (line : List Char) : List String := lineWordsFrom [] line

/-- The tokens of a line. -/
def lineTokens (line : List Char) (number : Nat) : List Token :=
  (lineWords line).map fun word => ⟨word, number⟩

/-- The tokens of a text. -/
def tokens (text : String) : List Token :=
  (cleanedText text).flatMap fun (line, number) => lineTokens line number

end TileCensus.Definition
