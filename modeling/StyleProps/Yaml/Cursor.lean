/-!
# Positions in a YAML text

A `Cursor` is a position in a text, with the characters from there on, its offset, and its line and
column. The layout of a YAML text gives structure, so every step keeps track of the column. Columns
count characters, and offsets count bytes of UTF-8.
-/

namespace StyleProps.Yaml

/-- Whether a character may stand in a YAML text. Control characters may not. -/
def isAllowed (c : Char) : Bool :=
  let n := c.toNat
  n == 0x09 || n == 0x0A || n == 0x0D || (0x20 ≤ n && n ≤ 0x7E) || n == 0x85 ||
    (0xA0 ≤ n && n ≤ 0xD7FF) || (0xE000 ≤ n && n ≤ 0xFFFD) || 0x10000 ≤ n

/-- Whether a character ends a line. -/
def isBreak (c : Char) : Bool :=
  c == '\n' || c == '\r' || c == '\x85' || c == '\u2028' || c == '\u2029'

/-- Whether a character is a space or a tab. -/
def isBlank (c : Char) : Bool :=
  c == ' ' || c == '\t'

/-- Whether a text is at its end or goes on with a blank or a line break. -/
def isSeparated : List Char → Bool
  | [] => true
  | c :: _ => isBlank c || isBreak c

/-- Whether a character may stand in the name of an anchor, a directive or a tag handle. -/
def isNameChar (c : Char) : Bool :=
  c.isAlphanum || c == '_' || c == '-'

/-- Whether a character is a mark of the structure of flow collections. -/
def isFlowMark (c : Char) : Bool :=
  c == ',' || c == '[' || c == ']' || c == '\x7b' || c == '\x7d'

/-- A position in a text. -/
structure Cursor where
  /-- The characters from here on. -/
  rest : List Char
  /-- The number of bytes before. -/
  offset : Nat
  /-- The number of lines before. -/
  line : Nat
  /-- The number of characters before on the same line. -/
  column : Nat
deriving Inhabited

namespace Cursor

/-- The beginning of a text. -/
def start (chars : List Char) : Cursor := ⟨chars, 0, 0, 0⟩

/-- The offset some characters further. -/
def offsetAfter (cursor : Cursor) (count : Nat) : Nat :=
  (cursor.rest.take count).foldl (fun offset c => offset + c.utf8Size) cursor.offset

/-- The position some characters further on the same line. -/
def skip (cursor : Cursor) (count : Nat) : Cursor :=
  ⟨cursor.rest.drop count, cursor.offsetAfter count, cursor.line, cursor.column + count⟩

/-- The characters from here on that have a property, and the position after them. The property must
not hold of line breaks. -/
def span (cursor : Cursor) (p : Char → Bool) : List Char × Cursor :=
  let taken := cursor.rest.takeWhile p
  (taken, cursor.skip taken.length)

/-- The position after the characters from here on that have a property. -/
def skipWhile (cursor : Cursor) (p : Char → Bool) : Cursor :=
  (cursor.span p).2

/-- The position at the beginning of the next line, after a line break of some characters. -/
def nextLine (cursor : Cursor) (width : Nat) : Cursor :=
  ⟨cursor.rest.drop width, cursor.offsetAfter width, cursor.line + 1, 0⟩

/-- The line break at a position, as it is read: most kinds count as a line feed. Without a line
break the position stays the same. -/
def lineBreak (cursor : Cursor) : List Char × Cursor :=
  match cursor.rest with
  | '\r' :: '\n' :: _ => (['\n'], cursor.nextLine 2)
  | '\u2028' :: _ => (['\u2028'], cursor.nextLine 1)
  | '\u2029' :: _ => (['\u2029'], cursor.nextLine 1)
  | c :: _ => if isBreak c then (['\n'], cursor.nextLine 1) else ([], cursor)
  | [] => ([], cursor)

/-- The position after blanks and a comment. -/
def skipComment (cursor : Cursor) : Cursor :=
  let cursor := cursor.skipWhile isBlank
  match cursor.rest with
  | '#' :: _ => cursor.skipWhile (!isBreak ·)
  | _ => cursor

/-- The position after a line that holds nothing more than a comment, or `none` if it holds more. -/
def restOfLine? (cursor : Cursor) : Option Cursor :=
  let cursor := cursor.skipComment
  match cursor.rest with
  | [] => some cursor
  | c :: _ => if isBreak c then some cursor.lineBreak.2 else none

/-- Whether three dashes stand here at the beginning of a line, which starts a document. -/
def atDocumentStart (cursor : Cursor) : Bool :=
  cursor.column == 0 &&
    match cursor.rest with
    | '-' :: '-' :: '-' :: rest => isSeparated rest
    | _ => false

/-- Whether three dots stand here at the beginning of a line, which ends a document. -/
def atDocumentEnd (cursor : Cursor) : Bool :=
  cursor.column == 0 &&
    match cursor.rest with
    | '.' :: '.' :: '.' :: rest => isSeparated rest
    | _ => false

/-- Whether the start or the end of a document is marked here. -/
def atDocumentMark (cursor : Cursor) : Bool :=
  cursor.atDocumentStart || cursor.atDocumentEnd

end Cursor

end StyleProps.Yaml
