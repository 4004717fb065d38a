import StyleProps.Json.Token

/-!
# Writing JSON

Two forms of a JSON document: `compact`, on one line and without blanks, and `pretty`, with one item
or member a line and two spaces of indentation a level.
-/

namespace StyleProps.Json

/-- The document on one line, without blanks. -/
def compact (value : Json) : String :=
  String.ofList ((tokens value).flatMap Token.chars)

/-- The start of a new line at a level of nesting. -/
def newline (level : Nat) : List Char :=
  '\n' :: List.replicate (2 * level) ' '

mutual
/-- The characters of a value at a level of nesting, with one item or member a line. -/
def prettyChars (level : Nat) : Json → List Char
  | .array [] => ['[', ']']
  | .array (item :: rest) =>
      '[' :: newline (level + 1) ++ prettyChars (level + 1) item ++ prettyItems (level + 1) rest ++
        newline level ++ [']']
  | .object [] => ['\x7b', '\x7d']
  | .object ((name, value) :: rest) =>
      '\x7b' :: newline (level + 1) ++ quote name.toList ++ ':' :: ' ' ::
        prettyChars (level + 1) value ++ prettyMembers (level + 1) rest ++ newline level ++ ['\x7d']
  | .null => Token.null.chars
  | .bool b => (Token.bool b).chars
  | .number n => n.chars
  | .string text => quote text.toList

/-- The characters of items that follow another one. -/
def prettyItems (level : Nat) : List Json → List Char
  | [] => []
  | item :: rest => ',' :: newline level ++ prettyChars level item ++ prettyItems level rest

/-- The characters of members that follow another one. -/
def prettyMembers (level : Nat) : List (String × Json) → List Char
  | [] => []
  | (name, value) :: rest =>
      ',' :: newline level ++ quote name.toList ++ ':' :: ' ' :: prettyChars level value ++
        prettyMembers level rest
end

/-- The document with one item or member a line; empty arrays and objects stay on one line. -/
def pretty (value : Json) : String :=
  String.ofList (prettyChars 0 value)

end StyleProps.Json
