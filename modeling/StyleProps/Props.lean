import StyleProps.Json.Parser
import StyleProps.Json.Printer
import StyleProps.Json.Sorted
import StyleProps.Table

/-!
# Props

The props of an element: names and values of any JSON shape. The shapes that style props can have
are told apart, and every other value is kept as JSON, so that reading an object of props never
fails.
-/

namespace StyleProps

/-- The shape of the value of a prop. -/
inductive PropKind where
  | null
  | boolean
  | number
  | string
  | pair
  | object
deriving DecidableEq, Repr

/-- The word for a shape. -/
def PropKind.name : PropKind → String
  | .null => "null"
  | .boolean => "boolean"
  | .number => "number"
  | .string => "string"
  | .pair => "pair"
  | .object => "object"

/-- The value of a prop. -/
inductive PropValue where
  | null
  | bool (b : Bool)
  | number (x : Float)
  | text (text : String)
  /-- A parameter and a style text, for selectors that need a parameter. -/
  | pair (param text : String)
  /-- A value of any other shape. -/
  | other (json : Json)
deriving Inhabited

namespace PropValue

/-- The shape of a value. Every value of another shape counts as an object. -/
def kind : PropValue → PropKind
  | .null => .null
  | .bool _ => .boolean
  | .number _ => .number
  | .text _ => .string
  | .pair _ _ => .pair
  | .other _ => .object

/-- The text of a value that is one. -/
def asText? : PropValue → Option String
  | .text content => some content
  | _ => none

/-- The value for a JSON value, by its shape alone. -/
def ofJson : Json → PropValue
  | .null => .null
  | .bool b => .bool b
  | .number n => .number n.toFloat
  | .string content => .text content
  | .array [.string param, .string content] => .pair param content
  | json => .other json.sorted

/-- The JSON value of a value. -/
def toJson : PropValue → Json
  | .null => .null
  | .bool b => .bool b
  | .number x => .number (.float x)
  | .text content => .string content
  | .pair param content => .array [.string param, .string content]
  | .other json => json

end PropValue

/-- The props of an element, in order. -/
abbrev Props := Table PropValue

namespace Props

/-- The props of the members of a JSON object; a repeated name keeps its first position and its last
value. -/
def ofMembers (members : List (String × Json)) : Props :=
  Table.ofList (members.map fun (name, value) => (name, PropValue.ofJson value))

/-- The props of a JSON value, which must be an object. -/
def ofJson? : Json → Option Props
  | .object members => some (ofMembers members)
  | _ => none

/-- The props of a JSON text. -/
def parse? (text : String) : Option Props :=
  (Json.parse? text).bind ofJson?

/-- The JSON object of props. -/
def toJson (props : Props) : Json :=
  .object (props.entries.map fun (name, value) => (name, value.toJson))

end Props

end StyleProps
