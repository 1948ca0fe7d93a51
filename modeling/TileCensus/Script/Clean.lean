import TileCensus.Text.Line

/-!
# Cleaned lines

Before a line is read, everything is taken out of it that could pass for code: comments, quoted
strings, and the free text after a quote command. A comment or a string leaves one blank behind,
so that it separates words; a quote command takes the rest of its line with it. Only a block
comment reaches past the end of its line, so whether one is open is all that passes from one line
to the next.
-/

namespace TileCensus.Script

open Text

/-- Whether a character is part of a word. Words are ASCII. -/
def isWordChar (c : Char) : Bool := c.isAlphanum || c = '_'

/-- The commands whose remaining line is free text. -/
def quoteCommands : List (List Char) :=
  ["qputs".toList, "definequote".toList, "redefinequote".toList]

/-- Looking a run of characters up in a list of commands finds that run. -/
instance lawfulBEq_word : LawfulBEq (List Char) := inferInstance

/-- Where in a line a scan stands. -/
inductive Region where
  | code
  | string
  | blockComment
deriving DecidableEq, Repr

/-- A cleaned line, and whether a block comment is open after it. -/
structure Cleaned where
  text : List Char
  inComment : Bool
deriving DecidableEq, Repr

/-- Cleans the rest of a line. `out` is what is kept so far and `word` the run of word characters
that directly precedes the rest; both are read backwards, and `word` is empty outside code. -/
def cleanFrom (region : Region) (out word rest : List Char) : Cleaned :=
  match region, rest with
  | .code, [] =>
    ⟨trim (if word.reverse ∈ quoteCommands then out else word ++ out).reverse, false⟩
  | .code, c :: rest =>
    if isWordChar c then cleanFrom .code out (c :: word) rest
    else if word.reverse ∈ quoteCommands then ⟨trimEnd out.reverse, false⟩
    else
      match c, rest with
      | '/', '/' :: _ => ⟨trim (word ++ out).reverse, false⟩
      | '/', '*' :: rest => cleanFrom .blockComment (' ' :: (word ++ out)) [] rest
      | '"', rest => cleanFrom .string (' ' :: (word ++ out)) [] rest
      | c, rest => cleanFrom .code (c :: (word ++ out)) [] rest
  | .string, [] => ⟨trim out.reverse, false⟩
  | .string, c :: rest => cleanFrom (if c = '"' then .code else .string) out [] rest
  | .blockComment, '*' :: '/' :: rest => cleanFrom .code out [] rest
  | .blockComment, _ :: rest => cleanFrom .blockComment out [] rest
  | .blockComment, [] => ⟨trim out.reverse, true⟩

/-- Cleans a line that begins inside a block comment or outside one. -/
def clean (inComment : Bool) (line : List Char) : Cleaned :=
  cleanFrom (if inComment then .blockComment else .code) [] [] (trim line)

/-- The cleaned lines of a text whose first line begins inside a block comment or outside one. -/
def cleanLines (inComment : Bool) : List (List Char) → List (List Char)
  | [] => []
  | line :: rest =>
    let cleaned := clean inComment line
    cleaned.text :: cleanLines cleaned.inComment rest

end TileCensus.Script
