import StyleProps.Yaml.Cursor

/-!
# Gaps in scalars

The blanks and line breaks between two words of a scalar. Blanks on one line are kept. A single line
break counts as a space, and of several line breaks the first one is left out.
-/

namespace StyleProps.Yaml

/-- The blanks and line breaks between two words. -/
structure Gap where
  /-- The blanks, if there is no line break. -/
  blanks : List Char
  /-- The first line break and those after it, if there are any. -/
  breaks : Option (List Char × List Char)

namespace Gap

/-- No blank and no line break. -/
def empty : Gap := ⟨[], none⟩

/-- What is left of a line break that is escaped: nothing, but blanks around it are left out. -/
def escapedBreak : Gap := ⟨[], some ([], [])⟩

/-- A line break and those after it, as they count in a scalar. -/
def fold (first more : List Char) : List Char :=
  if first = ['\n'] then if more.isEmpty then [' '] else more else first ++ more

/-- A gap as it counts in a scalar. -/
def text (gap : Gap) : List Char :=
  match gap.breaks with
  | none => gap.blanks
  | some (first, more) => fold first more

/-- Whether a gap holds a line break. -/
def hasBreak (gap : Gap) : Bool :=
  gap.breaks.isSome

/-- The gap with one more blank. -/
def addBlank (gap : Gap) (c : Char) : Gap :=
  match gap.breaks with
  | none => { gap with blanks := gap.blanks ++ [c] }
  | some _ => gap

/-- The gap with one more line break. -/
def addBreak (gap : Gap) (chars : List Char) : Gap :=
  match gap.breaks with
  | none => ⟨[], some (chars, [])⟩
  | some (first, more) => ⟨[], some (first, more ++ chars)⟩

/-- Reads on in a gap. It fails on a tab that stands before a column on a later line. -/
def readFrom? (tabColumn : Nat) : (fuel : Nat) → Gap → Cursor → Option (Gap × Cursor)
  | 0, gap, cursor => some (gap, cursor)
  | fuel + 1, gap, cursor =>
      match cursor.rest with
      | [] => some (gap, cursor)
      | c :: _ =>
          if isBlank c then
            if gap.hasBreak && c == '\t' && cursor.column < tabColumn then none
            else readFrom? tabColumn fuel (gap.addBlank c) (cursor.skip 1)
          else if isBreak c then
            let (chars, next) := cursor.lineBreak
            readFrom? tabColumn fuel (gap.addBreak chars) next
          else some (gap, cursor)

/-- The gap at a position, after what was read of it, and the position after it. -/
def read? (tabColumn : Nat) (gap : Gap) (cursor : Cursor) : Option (Gap × Cursor) :=
  readFrom? tabColumn cursor.rest.length gap cursor

end Gap

end StyleProps.Yaml
