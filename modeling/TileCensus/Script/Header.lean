import TileCensus.Script.Symbols

/-!
# Header lines

Some lines say something on their own, wherever they stand: a full action definition, an AI
routine with its action, and the header of an actor with the action it starts with. They are
recognised by the words of the line alone. A full action definition is nothing else; the other
headers are read as code once more.
-/

namespace TileCensus.Script

/-! ## Words in action position -/

/-- The action that a word in action position names; a literal means that there is none. -/
def actionName? (word : String) : Option String :=
  if Literal.isLiteral word then none else some word

/-- Whether a word is written like a constant: capitals, digits and underscores, after a minus
sign or not. -/
def isConstantLike (word : String) : Bool :=
  let body := match word.toList with
    | '-' :: body => body
    | body => body
  !body.isEmpty && body.all fun c => c.isUpper || c.isDigit || c = '_'

/-! ## Headers -/

/-- What a header line says. -/
inductive Header where
  /-- `action NAME START [COUNT [VIEW]]` with a literal start; the arguments begin with it. -/
  | action (name : String) (arguments : List String)
  /-- `ai NAME ACTION`. -/
  | ai (name : String) (action : Option String)
  /-- `actor NAME STRENGTH ACTION` or `useractor TYPE NAME STRENGTH ACTION`. -/
  | actor (name : String) (action : Option String)
deriving DecidableEq, Repr

namespace Header

/-- The header that the words of a line are. -/
def ofWords? (words : List String) : Option Header :=
  match words with
  | "action" :: name :: start :: rest =>
    if Literal.isLiteral start then some (action name (start :: rest)) else none
  | "ai" :: name :: bound :: _ =>
    if isConstantLike bound then some (ai name (actionName? bound)) else none
  | "actor" :: name :: strength :: initial :: _ =>
    if isConstantLike strength && isConstantLike initial then
      some (actor name (actionName? initial))
    else none
  | "useractor" :: _ :: name :: strength :: initial :: _ =>
    if isConstantLike strength && isConstantLike initial then
      some (actor name (actionName? initial))
    else none
  | _ => none

/-- Whether a header is a full action definition. -/
def isAction : Header → Bool
  | action .. => true
  | _ => false

/-- What a header at a place says. -/
def facts (origin : Location) : Header → List Fact
  | action name arguments => [.defines (ActionDef.ofArguments name arguments origin)]
  | ai name bound => [.binds name bound]
  | actor name initial => (initial.map (Fact.starts name)).toList ++ [.heads name origin]

end Header
end TileCensus.Script
