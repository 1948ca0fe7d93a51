/-!
# Excerpts

A stretch of a text shown where it stands: the number of its line, the line itself, and marks
below. Stretches are counted in the bytes of UTF-8. A position counts lines, and characters in its
line; the end of a text is the position right after its last character, even if that is a line
feed.
-/

namespace TileCensus.Text

/-- A stretch of a text, in bytes of its UTF-8 form. -/
structure Span where
  start : Nat
  stop : Nat
deriving DecidableEq, Repr

/-- How many bytes characters take. -/
def byteLength (chars : List Char) : Nat := chars.foldl (fun total c => total + c.utf8Size) 0

/-! ## Positions -/

/-- A place in a text. Lines and columns are counted from zero. -/
structure Position where
  line : Nat
  column : Nat
deriving DecidableEq, Repr

/-- Goes so many bytes into a text, after the characters `before`. Gives the characters that are
then behind, backwards, and those ahead. -/
def goInto (before : List Char) (bytes : Nat) : List Char → List Char × List Char
  | [] => (before, [])
  | c :: after =>
    if bytes = 0 then (before, c :: after) else goInto (c :: before) (bytes - c.utf8Size) after

/-- The characters of the last line, where a text is read backwards. -/
def lastLine (backwards : List Char) : List Char := backwards.takeWhile (· ≠ '\n')

/-- The position so many bytes into a text. The column in front of a character of several bytes
counts bytes. -/
def Position.ofOffset (text : List Char) (offset : Nat) : Position :=
  match goInto [] offset text with
  | (before, c :: _) =>
    let line := lastLine before
    ⟨before.count '\n', if c.utf8Size = 1 then line.length else byteLength line⟩
  | (_ :: before, []) => ⟨before.count '\n', (lastLine before).length + 1⟩
  | ([], []) => ⟨0, 0⟩

/-! ## Excerpts -/

/-- How many marks stand below a stretch: one for each of its bytes up to the end of the line, but
at least one. -/
def markCount (span : Span) (line : List Char) (column : Nat) : Nat :=
  max 1 (min (span.stop - span.start) (byteLength line - column))

/-- The lines that show a stretch of a text at a position. -/
def excerpt (text : List Char) (span : Span) (position : Position) : List String :=
  let number := Nat.repr (position.line + 1)
  let margin := String.ofList (List.replicate (number.length + 1) ' ') ++ "|"
  let line := ((text.splitOn '\n')[position.line]?).getD []
  let marks :=
    List.replicate (position.column + 1) ' ' ++
      List.replicate (markCount span line position.column) '^'
  [margin, number ++ " | " ++ String.ofList line, margin ++ String.ofList marks]

end TileCensus.Text
