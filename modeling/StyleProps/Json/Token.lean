import StyleProps.Json.Basic
import StyleProps.Decimal.Layout
import StyleProps.Text.Hex

/-!
# JSON tokens

A JSON document as a sequence of tokens: the six marks of structure and the values that hold no
other values. `ofJson` lists the tokens of a value, and `chars` writes one token; a document without
blanks is its tokens written one after another.
-/

namespace StyleProps.Json

/-- A token of a JSON document. -/
inductive Token where
  | leftBracket
  | rightBracket
  | leftBrace
  | rightBrace
  | comma
  | colon
  | null
  | bool (b : Bool)
  | number (n : Number)
  | string (text : String)
deriving Repr

/-- A character as it is written inside a string: quotes, backslashes and control characters are
escaped, and every other character stands for itself. -/
def escape (c : Char) : List Char :=
  if c = '"' then ['\\', '"']
  else if c = '\\' then ['\\', '\\']
  else if c = '\x08' then ['\\', 'b']
  else if c = '\t' then ['\\', 't']
  else if c = '\n' then ['\\', 'n']
  else if c = '\x0c' then ['\\', 'f']
  else if c = '\r' then ['\\', 'r']
  else if c.toNat < 0x20 then
    ['\\', 'u', '0', '0', Text.hexDigit (c.toNat / 16), Text.hexDigit (c.toNat % 16)]
  else [c]

/-- A string between quotes. -/
def quote (text : List Char) : List Char :=
  '"' :: (text.flatMap escape ++ ['"'])

/-- Floating-point numbers have a decimal point unless they are written with an exponent, which
begins below `0.00001` and at `10 ^ 16`. What is not a finite number is written as null. -/
def floatLayout : Decimal.Layout where
  tie := .even
  positional e := -5 ≤ e && e < 16
  wholeFraction := true
  infinite := "null"
  notANumber := "null"

/-- The text of a number. -/
def Number.chars : Number → List Char
  | .integer n => Decimal.signedDigits n
  | .float x => if x.isFinite then floatLayout.write x else ['n', 'u', 'l', 'l']

/-- The text of a token. -/
def Token.chars : Token → List Char
  | .leftBracket => ['[']
  | .rightBracket => [']']
  | .leftBrace => ['\x7b']
  | .rightBrace => ['\x7d']
  | .comma => [',']
  | .colon => [':']
  | .null => ['n', 'u', 'l', 'l']
  | .bool true => ['t', 'r', 'u', 'e']
  | .bool false => ['f', 'a', 'l', 's', 'e']
  | .number n => n.chars
  | .string text => quote text.toList

mutual
/-- The tokens of a value. -/
def tokens : Json → List Token
  | .null => [.null]
  | .bool b => [.bool b]
  | .number n => [.number n]
  | .string text => [.string text]
  | .array items => .leftBracket :: (itemTokens items ++ [.rightBracket])
  | .object members => .leftBrace :: (memberTokens members ++ [.rightBrace])

/-- The tokens of the items of an array, with commas between them. -/
def itemTokens : List Json → List Token
  | [] => []
  | item :: rest => tokens item ++ moreItemTokens rest

/-- The tokens of items that follow another one, each with a comma in front. -/
def moreItemTokens : List Json → List Token
  | [] => []
  | item :: rest => .comma :: (tokens item ++ moreItemTokens rest)

/-- The tokens of the members of an object, with commas between them. -/
def memberTokens : List (String × Json) → List Token
  | [] => []
  | (name, value) :: rest =>
      .string name :: .colon :: (tokens value ++ moreMemberTokens rest)

/-- The tokens of members that follow another one, each with a comma in front. -/
def moreMemberTokens : List (String × Json) → List Token
  | [] => []
  | (name, value) :: rest =>
      .comma :: .string name :: .colon :: (tokens value ++ moreMemberTokens rest)
end

end StyleProps.Json
