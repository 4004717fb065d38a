import StyleProps.Json.Lexer

/-!
# Reading JSON

A JSON document is read token by token. The state holds the arrays and objects that are still open,
innermost first, and what may come next; it is a plain data value, and a token changes it by
`step?`. `parse?` reads a text with no more than a given number of levels inside one another.
-/

namespace StyleProps.Json

/-- An array or object that is still open, with what it holds so far. -/
inductive Frame where
  /-- An array with its items, waiting for one more. -/
  | item (items : List Json)
  /-- An object with its members, waiting for the value of a name. -/
  | member (members : List (String × Json)) (name : String)

/-- What may come next, with the arrays and objects that are open. -/
inductive State where
  /-- A value. -/
  | needValue (stack : List Frame)
  /-- The first item of an array, or its end. -/
  | firstItem (stack : List Frame)
  /-- A comma or the end of an array. -/
  | afterItem (items : List Json) (stack : List Frame)
  /-- The first name of an object, or its end. -/
  | firstName (stack : List Frame)
  /-- A name. -/
  | needName (members : List (String × Json)) (stack : List Frame)
  /-- The colon after a name. -/
  | needColon (members : List (String × Json)) (name : String) (stack : List Frame)
  /-- A comma or the end of an object. -/
  | afterMember (members : List (String × Json)) (stack : List Frame)
  /-- Nothing. -/
  | done (value : Json)

/-- The state after a complete value. -/
def State.supply (value : Json) : List Frame → State
  | [] => .done value
  | .item items :: stack => .afterItem (items ++ [value]) stack
  | .member members name :: stack => .afterMember (members ++ [(name, value)]) stack

/-- The state after the first token of a value. -/
def State.begin? (limit : Nat) (stack : List Frame) : Token → Option State
  | .null => some (.supply .null stack)
  | .bool b => some (.supply (.bool b) stack)
  | .number n => some (.supply (.number n) stack)
  | .string text => some (.supply (.string text) stack)
  | .leftBracket => if stack.length < limit then some (.firstItem stack) else none
  | .leftBrace => if stack.length < limit then some (.firstName stack) else none
  | _ => none

/-- The state after a token, or `none` if the token may not come next. -/
def State.step? (limit : Nat) : State → Token → Option State
  | .needValue stack, token => State.begin? limit stack token
  | .firstItem stack, .rightBracket => some (.supply (.array []) stack)
  | .firstItem stack, token => State.begin? limit (.item [] :: stack) token
  | .afterItem items stack, .comma => some (.needValue (.item items :: stack))
  | .afterItem items stack, .rightBracket => some (.supply (.array items) stack)
  | .firstName stack, .rightBrace => some (.supply (.object []) stack)
  | .firstName stack, .string name => some (.needColon [] name stack)
  | .needName members stack, .string name => some (.needColon members name stack)
  | .needColon members name stack, .colon => some (.needValue (.member members name :: stack))
  | .afterMember members stack, .comma => some (.needName members stack)
  | .afterMember members stack, .rightBrace => some (.supply (.object members) stack)
  | _, _ => none

/-- The value of a sequence of tokens, read on from a state. -/
def State.run? (limit : Nat) : State → List Token → Option Json
  | .done value, [] => some value
  | _, [] => none
  | state, token :: rest =>
      match state.step? limit token with
      | some next => next.run? limit rest
      | none => none

/-- The value of a text, with no more than `limit` arrays and objects inside one another. -/
def parseWithin? (limit : Nat) (text : String) : Option Json :=
  match lex? text.toList with
  | some tokens => (State.needValue []).run? limit tokens
  | none => none

/-- The value of a JSON text, within the usual limit of nesting. -/
def parse? (text : String) : Option Json :=
  parseWithin? depthLimit text

end StyleProps.Json
