import StyleProps.Yaml.Gap

/-!
# Plain scalars

Scalars without quotes. They end at a colon before a blank, at a comment, at a mark of flow
collections inside such a collection, and outside one on a line that is not indented enough.
-/

namespace StyleProps.Yaml.Plain

/-- Whether a text begins with a character that may not follow a colon inside a flow collection. -/
def clashesWithColon : List Char → Bool
  | [] => false
  | c :: _ => isFlowMark c || c == '?'

/-- The word at the front of a text. It fails on a colon that a flow collection makes ambiguous. -/
def word? (inFlow : Bool) : List Char → Option (List Char)
  | [] => some []
  | c :: rest =>
      if isBlank c || isBreak c then some []
      else if c == ':' && inFlow && clashesWithColon rest then none
      else if (c == ':' && isSeparated rest) || (inFlow && isFlowMark c) then some []
      else (word? inFlow rest).map (c :: ·)

/-- A plain scalar that was found. -/
structure Found where
  /-- Its text, newest first. -/
  read : List Char
  /-- Whether a line break stands between its last word and the position after it. -/
  endsInBreak : Bool
  /-- The position after it and after the gap that follows it. -/
  next : Cursor

/-- Reads a scalar on, after a gap. Lines must be indented to a column outside flow collections. -/
def readFrom? (inFlow : Bool) (column : Nat) : (fuel : Nat) → (read : List Char) → Gap → Cursor →
    Option Found
  | 0, _, _, _ => none
  | fuel + 1, read, gap, cursor =>
      let stop : Found := ⟨read, gap.hasBreak, cursor⟩
      if cursor.atDocumentMark || cursor.rest.head? == some '#' then some stop
      else do
        let word ← word? inFlow cursor.rest
        if word.isEmpty then pure stop
        else
          let read := word.reverse ++ (gap.text.reverse ++ read)
          let after := cursor.skip word.length
          let (gap, next) ← Gap.read? column Gap.empty after
          if next.offset == after.offset then pure ⟨read, false, next⟩
          else if !inFlow && next.column < column then pure ⟨read, gap.hasBreak, next⟩
          else readFrom? inFlow column fuel read gap next

/-- The scalar at a position. -/
def read? (inFlow : Bool) (column : Nat) (cursor : Cursor) : Option Found :=
  readFrom? inFlow column (cursor.rest.length + 1) [] Gap.empty cursor

end StyleProps.Yaml.Plain
