import StyleProps.Declaration.Basic
import StyleProps.Text.Separated

/-!
# Emitters

How an alias turns its value into declarations. The value is one text, or the parts of a preset's
text between its commas. Emitters that take one text take parts joined by commas.
-/

namespace StyleProps

/-- The value that an emitter is given. -/
inductive EmitInput where
  /-- A single text. -/
  | scalar (text : String)
  /-- The parts of a text between its commas. -/
  | positional (parts : List String)
deriving DecidableEq, Repr

namespace EmitInput

/-- The parts of a text between its commas. -/
def ofCommas (text : String) : EmitInput :=
  .positional ((Text.split ',' text.toList).map String.ofList)

/-- The part at an index, unless it is missing or empty. A single text is the first part. -/
def slot? (input : EmitInput) (index : Nat) : Option String :=
  let part := match input with
    | .scalar content => if index = 0 then some content else none
    | .positional parts => parts[index]?
  part.filter (· ≠ "")

/-- The value as a single text. -/
def joined : EmitInput → String
  | .scalar content => content
  | .positional parts => String.ofList (Text.join ',' (parts.map String.toList))

end EmitInput

/-- How an alias produces its declarations. -/
inductive Emitter where
  /-- Every property gets the value. -/
  | properties (names : List String)
  /-- The property gets the value in double quotes, in a scope if one is given. -/
  | quoted (property : String) (scope : Option String)
  /-- A flexible box, with its alignment in the parts of the value. The direction is fixed or
  missing; with a direction slot, a third part sets it. -/
  | flex (direction : Option String) (directionSlot : Bool)
deriving DecidableEq, Repr, Inhabited

namespace Emitter

/-- The symbolic values of `flexDirection`. -/
def flexDirection : List (String × String) :=
  [("row", "row"),
   ("rowReverse", "row-reverse"),
   ("col", "column"),
   ("colReverse", "column-reverse"),
   ("initial", "initial"),
   ("inherit", "inherit"),
   ("unset", "unset")]

/-- The symbolic values of `justifyContent`. -/
def flexJustifyContent : List (String × String) :=
  [("default", "flex-start"),
   ("flexStart", "flex-start"),
   ("flexEnd", "flex-end"),
   ("center", "center"),
   ("between", "space-between"),
   ("around", "space-around"),
   ("evenly", "space-evenly"),
   ("start", "start"),
   ("end", "end"),
   ("left", "left"),
   ("right", "right"),
   ("initial", "initial"),
   ("auto", "auto")]

/-- The symbolic values of `alignItems`. -/
def flexAlignItems : List (String × String) :=
  [("default", "stretch"),
   ("stretch", "stretch"),
   ("flexStart", "flex-start"),
   ("flexEnd", "flex-end"),
   ("center", "center"),
   ("baseline", "baseline"),
   ("start", "start"),
   ("end", "end"),
   ("initial", "initial"),
   ("auto", "auto")]

/-- The literal value of a symbolic one; any other value stands for itself. -/
def literal (symbols : List (String × String)) (value : String) : String :=
  (Assoc.get? value symbols).getD value

/-- A property with the literal value of a part, if the part is there. -/
def slotEntry (key : String) (symbols : List (String × String)) (part : Option String) :
    List (String × String) :=
  (part.map fun value => (key, literal symbols value)).toList

/-- The texts that a flexible box stores, in the order in which they are stored. -/
def flexTexts (direction : Option String) (directionSlot : Bool) (input : EmitInput) :
    List (String × String) :=
  [("display", "flex")] ++
    (direction.map fun value => ("flexDirection", value)).toList ++
    slotEntry "justifyContent" flexJustifyContent (input.slot? 0) ++
    slotEntry "alignItems" flexAlignItems (input.slot? 1) ++
    (if directionSlot then slotEntry "flexDirection" flexDirection (input.slot? 2) else [])

/-- The declarations for a value. -/
def emit (emitter : Emitter) (input : EmitInput) : Declarations :=
  match emitter with
  | .properties names => Declarations.ofTexts (names.map fun name => (name, input.joined))
  | .quoted property scope =>
      let rule := Declarations.ofTexts [(property, "\"" ++ input.joined ++ "\"")]
      match scope with
      | some scope => rule.wrap scope
      | none => rule
  | .flex direction directionSlot =>
      Declarations.ofTexts (flexTexts direction directionSlot input)

end Emitter

end StyleProps
