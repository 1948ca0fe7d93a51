import TileCensus.Instance.Rule
import TileCensus.Script.Clean

/-!
# Instance lines

An instance line is a line of a script after the place it was found at, `<path>:<line>:`. The
place is the shortest beginning of that form which holds no blank; what follows it is cleaned on
its own, so a comment never reaches from one instance line into the next. A token may end in an
index in brackets, which is not part of its name.
-/

namespace TileCensus.Instance

open Text

/-! ## Places -/

/-- What follows one or more digits and a colon at the beginning of a line. -/
def afterNumber? (line : List Char) : Option (List Char) :=
  match line.takeWhile isDecimalDigit, line.dropWhile isDecimalDigit with
  | _ :: _, ':' :: rest => some rest
  | _, _ => none

/-- What follows the place at the beginning of a line. -/
def afterPlace? : List Char → Option (List Char)
  | [] => none
  | c :: rest =>
    match if c = ':' then afterNumber? rest else none with
    | some body => some body
    | none => if isBlank c then none else afterPlace? rest

/-- The cleaned script text of an instance line. -/
def clean (line : List Char) : List Char :=
  let line := trim line
  (Script.clean false ((afterPlace? line).getD line)).text

/-! ## Tokens -/

/-- A token, read backwards, without the index it ends in. -/
def dropIndex? : List Char → Option (List Char)
  | ']' :: rest =>
    match rest.takeWhile isDecimalDigit, rest.dropWhile isDecimalDigit with
    | _ :: _, '[' :: name => some name
    | _, _ => none
  | _ => none

/-- A token without the index it ends in. -/
def stripIndex (token : String) : String :=
  match dropIndex? token.toList.reverse with
  | some name => String.ofList name.reverse
  | none => token

/-- The token at the rule's offset for each keyword among the tokens of a line, in order; none
where the line has ended. -/
def arguments (rule : Rule) (tokens : List String) : List (Option String) :=
  tokens.zipIdx.filterMap fun (token, position) =>
    if token ∈ rule.keywords then some tokens[position + rule.offset]? else none

end TileCensus.Instance
