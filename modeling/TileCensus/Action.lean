import TileCensus.Constants

/-!
# Action definitions

An action is a run of animation frames. Its definition gives a start frame, a frame count and a
view type, each written as a literal or as the name of a constant that is looked up only when
tiles are marked.
-/

namespace TileCensus

/-! ## Operands -/

/-- A word in argument position: a literal, or a name to be looked up later. -/
inductive Operand where
  | literal (value : Int64)
  | symbol (name : String)
deriving DecidableEq

namespace Operand

/-- The operand a word is. -/
def ofWord (word : String) : Operand :=
  match Literal.value? word with
  | some value => literal value
  | none => symbol word

theorem ofWord_eq_literal_iff {word : String} {value : Int64} :
    ofWord word = literal value ↔ Literal.value? word = some value := by
  rw [ofWord]
  cases Literal.value? word <;> simp

theorem ofWord_eq_symbol_iff {word name : String} :
    ofWord word = symbol name ↔ Literal.value? word = none ∧ word = name := by
  rw [ofWord]
  cases Literal.value? word <;> simp

/-- An operand as it is printed: a literal in decimal, a name as it stands. -/
def text : Operand → String
  | literal value => toString value.toInt
  | symbol name => name

/-- The value of an operand. -/
def resolve? (constants : Constants) : Operand → Option Int64
  | literal value => some value
  | symbol name => constants[name]?

end Operand

/-! ## Actions -/

/-- The definition of an action, with the place it was read at. -/
structure ActionDef where
  name : String
  startFrame : Operand
  frameCount : Operand
  viewType : Operand
  origin : Location
deriving DecidableEq

/-- The definition with the words `arguments` after its name. Left out, the start frame is zero
and the frame count and the view type are one; a fourth word says nothing. -/
def ActionDef.ofArguments (name : String) (arguments : List String) (origin : Location) :
    ActionDef where
  name
  startFrame := (arguments[0]?.map Operand.ofWord).getD (.literal 0)
  frameCount := (arguments[1]?.map Operand.ofWord).getD (.literal 1)
  viewType := (arguments[2]?.map Operand.ofWord).getD (.literal 1)
  origin

end TileCensus
