import StyleProps.Text.Hex
import StyleProps.Yaml.Gap

/-!
# Quoted scalars

Scalars between single quotes, in which a quote is written twice, and between double quotes, in
which backslashes begin escapes. Line breaks are folded.
-/

namespace StyleProps.Yaml.Quoted

/-- The number that a given count of hexadecimal digits stands for. -/
def hexNumber? (count : Nat) (chars : List Char) : Option Nat :=
  if chars.length < count then none
  else (chars.take count).foldlM (fun n c => (Text.hexValue? c).map (n * 16 + ·)) 0

/-- The character of an escape that is written with a single letter. -/
def simpleEscape? : Char → Option Char
  | '0' => some '\x00'
  | 'a' => some '\x07'
  | 'b' => some '\x08'
  | 't' => some '\t'
  | '\t' => some '\t'
  | 'n' => some '\n'
  | 'v' => some '\x0b'
  | 'f' => some '\x0c'
  | 'r' => some '\r'
  | 'e' => some '\x1b'
  | ' ' => some ' '
  | '"' => some '"'
  | '/' => some '/'
  | '\\' => some '\\'
  | 'N' => some '\u0085'
  | '_' => some '\u00a0'
  | 'L' => some '\u2028'
  | 'P' => some '\u2029'
  | _ => none

/-- The number of hexadecimal digits of an escape that gives a code point. -/
def escapeWidth? : Char → Option Nat
  | 'x' => some 2
  | 'u' => some 4
  | 'U' => some 8
  | _ => none

/-- The character of a code point; surrogates stand for none. -/
def ofCodePoint? (n : Nat) : Option Char :=
  if n.isValidChar then some (Char.ofNat n) else none

/-- The character of an escape and the number of characters after the backslash that it takes. -/
def escape? : List Char → Option (Char × Nat)
  | [] => none
  | c :: rest =>
      match simpleEscape? c with
      | some e => some (e, 1)
      | none => do
          let width ← escapeWidth? c
          let n ← hexNumber? width rest
          let e ← ofCodePoint? n
          pure (e, width + 1)

/-- Reads a scalar on to its closing quote; `read` holds what was read of it, newest first. A scalar
may not hold the mark of a document. -/
def readFrom? (style : Char) : (fuel : Nat) → (read : List Char) → Cursor →
    Option (List Char × Cursor)
  | 0, _, _ => none
  | fuel + 1, read, cursor =>
      if cursor.atDocumentMark then none
      else
        match cursor.rest with
        | [] => none
        | c :: rest =>
            if c == style then
              if style == '\'' && rest.head? == some '\'' then
                readFrom? style fuel ('\'' :: read) (cursor.skip 2)
              else some (read.reverse, cursor.skip 1)
            else if c == '\\' && style == '"' then
              match rest with
              | [] => none
              | d :: _ =>
                  if isBreak d then do
                    let (gap, next) ← Gap.read? 0 Gap.escapedBreak (cursor.skip 1).lineBreak.2
                    readFrom? style fuel (gap.text.reverse ++ read) next
                  else do
                    let (e, width) ← escape? rest
                    readFrom? style fuel (e :: read) (cursor.skip (width + 1))
            else if isBlank c || isBreak c then do
              let (gap, next) ← Gap.read? 0 Gap.empty cursor
              readFrom? style fuel (gap.text.reverse ++ read) next
            else readFrom? style fuel (c :: read) (cursor.skip 1)

/-- The text of the scalar whose opening quote is at a position, and the position after it. -/
def read? (cursor : Cursor) : Option (List Char × Cursor) :=
  match cursor.rest with
  | [] => none
  | quote :: rest => readFrom? quote (rest.length + 1) [] (cursor.skip 1)

end StyleProps.Yaml.Quoted
