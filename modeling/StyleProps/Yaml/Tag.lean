import StyleProps.Decimal.Digits
import StyleProps.Text.Hex
import StyleProps.Yaml.Cursor
import StyleProps.Yaml.Token

/-!
# Names, tags and directives

The tokens that begin with `&`, `*`, `!` and `%`.
-/

namespace StyleProps.Yaml.Tag

/-- Whether a character may end the name of an anchor or of an alias. -/
def endsName : List Char → Bool
  | c :: rest =>
      isSeparated (c :: rest) || c == '?' || c == ':' || c == ',' || c == ']' || c == '\x7d' ||
        c == '%' || c == '@' || c == '\x60'
  | [] => true

/-- The name after the mark of an anchor or of an alias. -/
def name? (cursor : Cursor) : Option (String × Cursor) :=
  let (name, next) := (cursor.skip 1).span isNameChar
  if name.isEmpty || !endsName next.rest then none else some (String.ofList name, next)

/-- Whether a character may stand in a tag. Some may only where no flow collection can end. -/
def isUriChar (anyPlace : Bool) (c : Char) : Bool :=
  isNameChar c || c == ';' || c == '/' || c == '?' || c == ':' || c == '@' || c == '&' ||
    c == '=' || c == '+' || c == '$' || c == '.' || c == '%' || c == '!' || c == '~' || c == '*' ||
    c == '\'' || c == '(' || c == ')' || (anyPlace && (c == ',' || c == '[' || c == ']'))

/-- The octet of an escape at the front. -/
def octet? : List Char → Option (Nat × List Char)
  | '%' :: a :: b :: rest => do
      let a ← Text.hexValue? a
      let b ← Text.hexValue? b
      pure (a * 16 + b, rest)
  | _ => none

/-- The number of octets of the character that begins with an octet. -/
def octetCount? (octet : Nat) : Option Nat :=
  if octet < 0x80 then some 1
  else if 0xC0 ≤ octet && octet < 0xE0 then some 2
  else if 0xE0 ≤ octet && octet < 0xF0 then some 3
  else if 0xF0 ≤ octet && octet < 0xF8 then some 4
  else none

/-- Passes over escapes of octets that continue a character. -/
def continuation? : (count : Nat) → List Char → Option (List Char)
  | 0, chars => some chars
  | count + 1, chars => do
      let (octet, rest) ← octet? chars
      if 0x80 ≤ octet && octet < 0xC0 then continuation? count rest else none

/-- The escaped character at the front. Only ASCII characters are told apart: the tags that have a
meaning here hold no others. -/
def escape? (chars : List Char) : Option (Char × List Char) := do
  let (octet, rest) ← octet? chars
  let count ← octetCount? octet
  let rest ← continuation? (count - 1) rest
  pure (if octet < 0x80 then Char.ofNat octet else '\ufffd', rest)

/-- Reads the characters of a tag on. -/
def uriFrom? (anyPlace : Bool) : (fuel : Nat) → List Char → Option (List Char × List Char)
  | 0, chars => some ([], chars)
  | fuel + 1, chars =>
      match chars with
      | [] => some ([], [])
      | c :: rest =>
          if c == '%' then do
            let (e, rest) ← escape? chars
            let (read, rest) ← uriFrom? anyPlace fuel rest
            pure (e :: read, rest)
          else if isUriChar anyPlace c then do
            let (read, rest) ← uriFrom? anyPlace fuel rest
            pure (c :: read, rest)
          else some ([], chars)

/-- The characters of a tag at a position; what follows an escaped null character does not count. -/
def uri? (anyPlace : Bool) (cursor : Cursor) : Option (List Char × Cursor) := do
  let (read, rest) ← uriFrom? anyPlace cursor.rest.length cursor.rest
  pure (read, cursor.skip (cursor.rest.length - rest.length))

/-- A text up to its first null character. -/
def text (chars : List Char) : String :=
  String.ofList (chars.takeWhile (· != '\x00'))

/-- The tag handle at a position: an exclamation mark, with a name and a second one or not. -/
def handle? (cursor : Cursor) : Option (List Char × Cursor) :=
  match cursor.rest with
  | '!' :: _ =>
      let (name, next) := (cursor.skip 1).span isNameChar
      match next.rest with
      | '!' :: _ => some ('!' :: (name ++ ['!']), next.skip 1)
      | _ => some ('!' :: name, next)
  | _ => none

/-- Whether a handle has a second exclamation mark. -/
def isFullHandle (handle : List Char) : Bool :=
  1 < handle.length && handle.getLast? == some '!'

/-- The handle and the suffix of a tag that is written between angle brackets. -/
def verbatim? (cursor : Cursor) : Option (Token × Cursor) := do
  let (uri, next) ← uri? true (cursor.skip 2)
  if uri.isEmpty then none
  else
    match next.rest with
    | '>' :: _ => pure (.tag "" (text uri), next.skip 1)
    | _ => none

/-- The handle and the suffix of a tag. A tag without a full handle has the handle `!`, and the tag
that is an exclamation mark alone has no handle. -/
def shorthand? (cursor : Cursor) : Option (Token × Cursor) := do
  let (handle, next) ← handle? cursor
  let (uri, after) ← uri? false next
  if isFullHandle handle then
    if uri.isEmpty then none else pure (.tag (String.ofList handle) (text uri), after)
  else
    let suffix := text (handle.drop 1 ++ uri)
    pure (if suffix = "" then .tag "" "!" else .tag "!" suffix, after)

/-- The tag at a position. A blank must follow it, or inside a flow collection a comma. -/
def tag? (inFlow : Bool) (cursor : Cursor) : Option (Token × Cursor) := do
  let (token, next) ← match cursor.rest with
    | '!' :: '<' :: _ => verbatim? cursor
    | _ => shorthand? cursor
  if isSeparated next.rest || (inFlow && next.rest.head? == some ',') then pure (token, next)
  else none

/-- A number of a version, of at most nine digits. -/
def versionNumber? (cursor : Cursor) : Option (Nat × Cursor) :=
  let (digits, next) := cursor.span Decimal.isDigit
  if digits.isEmpty || 9 < digits.length then none else some (Decimal.value digits, next)

/-- The version of a version directive. -/
def version? (cursor : Cursor) : Option (Token × Cursor) := do
  let (major, next) ← versionNumber? (cursor.skipWhile isBlank)
  if next.rest.head? == some '.' then
    let (minor, next) ← versionNumber? (next.skip 1)
    pure (.versionDirective major minor, next)
  else none

/-- The handle of a tag directive and what it stands for. -/
def handleDefinition? (cursor : Cursor) : Option (Token × Cursor) := do
  let (handle, next) ← handle? (cursor.skipWhile isBlank)
  if !isFullHandle handle && handle != ['!'] then none
  else if !(next.rest.head?.any isBlank) then none
  else
    let (uri, next) ← uri? true (next.skipWhile isBlank)
    if uri.isEmpty || !isSeparated next.rest then none
    else pure (.tagDirective (String.ofList handle) (text uri), next)

/-- The directive at a position, and the position after its line. -/
def directive? (cursor : Cursor) : Option (Token × Cursor) := do
  let (name, next) := (cursor.skip 1).span isNameChar
  if !isSeparated next.rest then none
  else
    let (token, next) ← match String.ofList name with
      | "YAML" => version? next
      | "TAG" => handleDefinition? next
      | _ => none
    pure (token, ← next.restOfLine?)

end StyleProps.Yaml.Tag
