import StyleProps.Statement.Lexer
import StyleProps.Text.Separated

/-!
# Statements

A statement is one of the parts of a style text: the selector tokens that scope it, the media alias
that it is restricted to, and its value. `parse` reads a statement of a property alias, in which
marks may stand anywhere. `parseScoped` reads a statement of a selector, in which marks stand in
front. Reading never fails: text without marks is a value.
-/

namespace StyleProps

/-- A statement, taken apart. -/
structure Statement where
  /-- The selector tokens, in order of appearance. -/
  selectors : List SelectorToken
  /-- The media alias. -/
  media : Option String
  /-- The value. It may be empty. -/
  value : String
deriving DecidableEq, Repr, Inhabited

namespace Statement

/-- Whether a statement has a selector token or a media alias. -/
def hasStructure (statement : Statement) : Bool :=
  !statement.selectors.isEmpty || statement.media.isSome

/-- The marks of a text from left to right. What is no mark is passed over one character at a time,
and text inside a mark is not read again. -/
def marks (chars : List Char) : List Mark :=
  match chars with
  | [] => []
  | c :: rest =>
      match _h : Mark.lex? (c :: rest) with
      | some (mark, after) => mark :: marks after
      | none => marks rest
termination_by chars.length
decreasing_by
  · exact Mark.length_of_lex? _h
  · simp

/-- The content of the first bracket escape anywhere in a text, also inside other marks. -/
def firstBracket? : List Char → Option (List Char)
  | [] => none
  | c :: rest =>
      match bracket? (c :: rest) with
      | some (content, _) => some content
      | none => firstBracket? rest

/-- The value of a statement of a property alias: the content of the first bracket escape; or the
text after the last equals sign; or nothing, if the statement has a selector token or a media alias;
or the whole text. -/
def rawValue (hasStructure : Bool) (chars : List Char) : List Char :=
  match firstBracket? chars with
  | some content => content
  | none =>
      match Text.afterLast? '=' chars with
      | some after => after
      | none => if hasStructure then [] else chars

/-- The selector tokens among marks. -/
def selectorsOf (marks : List Mark) : List SelectorToken :=
  marks.filterMap Mark.selector?

/-- The first media alias among marks. -/
def mediaOf (marks : List Mark) : Option String :=
  marks.findSome? Mark.media?

/-- Reads a statement of a property alias. -/
def parse (text : String) : Statement :=
  let marks := marks text.toList
  let selectors := selectorsOf marks
  let media := mediaOf marks
  let hasStructure := !selectors.isEmpty || media.isSome
  ⟨selectors, media, String.ofList (rawValue hasStructure text.toList)⟩

/-- The selector tokens and the media alias in front of a text, and the text after them. A second
media alias and a bracket escape end them. -/
def leading (hasMedia : Bool) (chars : List Char) : List Mark × List Char :=
  match _h : Mark.lex? chars with
  | some (.selector token, after) =>
      let (marks, rest) := leading hasMedia after
      (.selector token :: marks, rest)
  | some (.media name, after) =>
      if hasMedia then ([], chars)
      else
        let (marks, rest) := leading true after
        (.media name :: marks, rest)
  | _ => ([], chars)
termination_by chars.length
decreasing_by
  · exact Mark.length_of_lex? _h
  · exact Mark.length_of_lex? _h

/-- The content of a text that is a single bracket escape, and any other text as it is. -/
def unwrapped (chars : List Char) : List Char :=
  match bracket? chars with
  | some (content, []) => content
  | _ => chars

/-- The text after an equals sign in front of it, if there is one. -/
def afterEquals : List Char → List Char
  | '=' :: rest => rest
  | chars => chars

/-- Reads a statement of a selector. After selector tokens or a media alias, one equals sign is
passed over, and the rest is the value, without its brackets if it is a single bracket escape. -/
def parseScoped (text : String) : Statement :=
  let (marks, rest) := leading false text.toList
  let selectors := selectorsOf marks
  let media := mediaOf marks
  let rest := if marks.isEmpty then rest else afterEquals rest
  ⟨selectors, media, String.ofList (unwrapped rest)⟩

end Statement

end StyleProps
