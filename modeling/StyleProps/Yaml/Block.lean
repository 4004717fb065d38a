import StyleProps.Decimal.Digits
import StyleProps.Yaml.Cursor

/-!
# Block scalars

Scalars that are set off by indentation, either literal, with every line break kept, or folded. The
header may fix the indentation and what becomes of the line breaks at the end.
-/

namespace StyleProps.Yaml.Block

/-- What becomes of the line breaks at the end of a scalar. -/
inductive Chomping where
  /-- None is kept. -/
  | strip
  /-- The first one is kept. -/
  | clip
  /-- All are kept. -/
  | keep
deriving DecidableEq

/-- The header of a block scalar; without an indentation the first line sets it. -/
structure Header where
  chomping : Chomping
  indentation : Option Nat

/-- What a sign in a header stands for. -/
def chomping? : Char → Option Chomping
  | '+' => some .keep
  | '-' => some .strip
  | _ => none

/-- The header at a position after the indicator of the scalar: a sign and a digit in either order,
both optional. The digit may not be zero. -/
def header? (cursor : Cursor) : Option (Header × Cursor) :=
  let digit? (c : Char) : Option Nat :=
    if Decimal.isDigit c then some (Decimal.digitValue c) else none
  let digit (header : Header) (cursor : Cursor) : Option (Header × Cursor) :=
    match cursor.rest.head?.bind digit? with
    | none => some (header, cursor)
    | some 0 => none
    | some n => some ({ header with indentation := some n }, cursor.skip 1)
  let sign (header : Header) (cursor : Cursor) : Header × Cursor :=
    match cursor.rest.head?.bind chomping? with
    | none => (header, cursor)
    | some chomping => ({ header with chomping }, cursor.skip 1)
  let plain : Header := ⟨.clip, none⟩
  match cursor.rest.head?.bind chomping? with
  | some chomping => digit { plain with chomping } (cursor.skip 1)
  | none => (digit plain cursor).map fun (header, next) =>
      if header.indentation.isSome then sign header next else (header, next)

/-- The blank lines at a position. Spaces are passed over up to a column, or all of them while the
column is still open; a tab may not stand before it. The greatest column that was seen is kept. -/
def blankLinesFrom? (column : Option Nat) : (fuel : Nat) → (breaks : List Char) →
    (greatest : Nat) → Cursor → Option (List Char × Nat × Cursor)
  | 0, breaks, greatest, cursor => some (breaks, greatest, cursor)
  | fuel + 1, breaks, greatest, cursor =>
      let spaces := (cursor.rest.takeWhile (· == ' ')).length
      let cursor := match column with
        | none => cursor.skip spaces
        | some column => cursor.skip (min spaces (column - cursor.column))
      let greatest := max greatest cursor.column
      let isBefore := match column with
        | none => true
        | some column => cursor.column < column
      match cursor.rest with
      | [] => some (breaks, greatest, cursor)
      | c :: _ =>
          if isBefore && c == '\t' then none
          else if isBreak c then
            let (chars, next) := cursor.lineBreak
            blankLinesFrom? column fuel (breaks ++ chars) greatest next
          else some (breaks, greatest, cursor)

/-- The blank lines at a position, the greatest column seen, and the position after them. -/
def blankLines? (column : Option Nat) (cursor : Cursor) : Option (List Char × Nat × Cursor) :=
  blankLinesFrom? column (cursor.rest.length + 1) [] 0 cursor

/-- What was read of a block scalar. -/
structure Progress where
  /-- The text, without the line breaks at its end. -/
  text : List Char
  /-- The first line break at the end. -/
  lastBreak : List Char
  /-- The line breaks after it. -/
  moreBreaks : List Char
  /-- Whether the last line begins with a blank. Such a line is not folded. -/
  isIndented : Bool

/-- The text with the next line. In a folded scalar, a line feed between two lines that begin with
no blank counts as a space, or as nothing before further line breaks. -/
def Progress.addLine (folded : Bool) (progress : Progress) (line : List Char) : List Char :=
  let isIndented := line.head?.any isBlank
  let lineBreak :=
    if folded && progress.lastBreak == ['\n'] && !progress.isIndented && !isIndented then
      if progress.moreBreaks.isEmpty then [' '] else []
    else progress.lastBreak
  progress.text ++ lineBreak ++ progress.moreBreaks ++ line

/-- Reads the lines of a scalar that are indented to a column. -/
def linesFrom? (folded : Bool) (column : Nat) : (fuel : Nat) → Progress → Cursor →
    Option (Progress × Cursor)
  | 0, progress, cursor => some (progress, cursor)
  | fuel + 1, progress, cursor =>
      if cursor.column != column || cursor.rest.isEmpty then some (progress, cursor)
      else do
        let (line, cursor) := cursor.span (!isBreak ·)
        let (lastBreak, cursor) := cursor.lineBreak
        let (moreBreaks, _, cursor) ← blankLines? (some column) cursor
        let text := progress.addLine folded line
        linesFrom? folded column fuel ⟨text, lastBreak, moreBreaks, line.head?.any isBlank⟩ cursor

/-- The text of a scalar with the line breaks at its end that are kept. -/
def Progress.finish (progress : Progress) : Chomping → List Char
  | .strip => progress.text
  | .clip => progress.text ++ progress.lastBreak
  | .keep => progress.text ++ progress.lastBreak ++ progress.moreBreaks

/-- The text of the scalar whose indicator is at a position, and the position after it. The
collection around it is indented by `indent`, which is negative if there is none. -/
def read? (folded : Bool) (indent : Int) (cursor : Cursor) : Option (List Char × Cursor) := do
  let (header, cursor) ← header? (cursor.skip 1)
  let cursor ← cursor.restOfLine?
  let fixed := header.indentation.map fun n => (max indent 0).toNat + n
  let (breaks, greatest, cursor) ← blankLines? fixed cursor
  -- Without an indentation in the header, the deepest of the blank lines and the first line sets
  -- it.
  let column := fixed.getD (max greatest (max (indent + 1) 1).toNat)
  let (progress, cursor) ←
    linesFrom? folded column (cursor.rest.length + 1) ⟨[], [], breaks, false⟩ cursor
  pure (progress.finish header.chomping, cursor)

end StyleProps.Yaml.Block
