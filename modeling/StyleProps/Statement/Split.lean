import StyleProps.Statement.Basic

/-!
# Splitting style texts

A style text is a list of statements with bars between them, and the value of a statement of a
selector is a list of items with semicolons between them. Separators inside bracket escapes do not
split.
-/

namespace StyleProps.Statement

/-- The parts of a text between the separators that stand outside bracket escapes. -/
def splitOutside (separator : Char) (chars : List Char) : List (List Char) :=
  match chars with
  | [] => [[]]
  | c :: rest =>
      match _h : bracket? (c :: rest) with
      | some (content, after) =>
          Text.onFirst ('[' :: (content ++ [']'])) (splitOutside separator after)
      | none =>
          if c = separator then [] :: splitOutside separator rest
          else Text.onFirst [c] (splitOutside separator rest)
termination_by chars.length
decreasing_by
  · exact length_of_bracket? _h
  · simp
  · simp

/-- The statements of a style text. -/
def split (text : String) : List String :=
  (splitOutside '|' text.toList).map String.ofList

/-- An item of a list: its name before the first equals sign, and its value, without its brackets if
it is a single bracket escape. A text without equals sign is no item. -/
def item? (chars : List Char) : Option (String × String) :=
  (Text.cut? '=' chars).map fun (name, value) =>
    (String.ofList name, String.ofList (unwrapped value))

/-- The items of a statement of a selector. -/
def splitItems (text : String) : List (String × String) :=
  (splitOutside ';' text.toList).filterMap item?

end StyleProps.Statement
