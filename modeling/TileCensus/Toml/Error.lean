import TileCensus.Text.Excerpt
import TileCensus.Toml.Document
import TileCensus.Toml.Mismatch

/-!
# TOML errors

Why nothing is made of a text: it is no document, or the document is not what it should be. Both
are told in the same way, with an excerpt of the text.
-/

namespace TileCensus.Toml

open Text (Span Position)

/-- What is wrong with a text. -/
inductive Defect where
  | fault (fault : Fault)
  | mismatch (kind : MismatchKind)
deriving DecidableEq, Repr

/-- The defect in words. -/
def Defect.message : Defect → String
  | fault cause => cause.message
  | mismatch kind => kind.message

/-- Why nothing is made of a text. -/
structure Error where
  text : String
  span : Span
  defect : Defect
deriving DecidableEq, Repr

/-- The reason in words: where in the text, an excerpt, and what is wrong there. -/
def Error.message (reason : Error) : String :=
  let text := reason.text.toList
  let position := Position.ofOffset text reason.span.start
  let line := position.line + 1
  let column := position.column + 1
  let lines := s!"TOML parse error at line {line}, column {column}" ::
    Text.excerpt text reason.span position ++ [reason.defect.message, ""]
  "\n".intercalate lines

/-- The stretch of the character so many bytes into a text. -/
def charSpan (text : String) (offset : Nat) : Span :=
  ⟨offset, offset + (((Text.goInto [] offset text.toList).2.head?).map Char.utf8Size).getD 0⟩

/-- The document that a text is. -/
def documentOf (text : String) : Except Error (TableOf Value) :=
  match document ⟨0, text.toList⟩ with
  | .ok (root, _) => .ok root
  | .error failure => .error ⟨text, charSpan text failure.offset, .fault failure.fault⟩

end TileCensus.Toml
