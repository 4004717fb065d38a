import StyleProps.Declaration.Basic
import StyleProps.Json.Parser
import StyleProps.Json.Printer

/-!
# Declaration objects as JSON

A declaration object is written as a JSON object, with its entries in order; its numbers are
floating-point numbers. Reading accepts the objects in which no null and no boolean occurs at any
depth. A member that is repeated keeps its first position and its last value.
-/

namespace StyleProps

namespace Value

mutual
/-- The JSON value of a value. -/
def toJson : Value → Json
  | .text content => .string content
  | .number x => .number (.float x)
  | .list items => .array (itemsToJson items)
  | .nested entries => .object (entriesToJson entries)

/-- The JSON values of the items of a list. -/
def itemsToJson : List Value → List Json
  | [] => []
  | item :: rest => toJson item :: itemsToJson rest

/-- The members for the entries of an object. -/
def entriesToJson : List (String × Value) → List (String × Json)
  | [] => []
  | (key, value) :: rest => (key, toJson value) :: entriesToJson rest
end

mutual
/-- The value of a JSON value, if it holds no null and no boolean. -/
def ofJson? : Json → Option Value
  | .null => none
  | .bool _ => none
  | .number n => some (.number n.toFloat)
  | .string content => some (.text content)
  | .array items => (itemsOfJson? items).map .list
  | .object members => (entriesOfJson? [] members).map .nested

/-- The values of the items of an array. -/
def itemsOfJson? : List Json → Option (List Value)
  | [] => some []
  | item :: rest =>
      match ofJson? item, itemsOfJson? rest with
      | some value, some values => some (value :: values)
      | _, _ => none

/-- Stores the members of an object one by one. -/
def entriesOfJson? (stored : Declarations) : List (String × Json) → Option Declarations
  | [] => some stored
  | (key, member) :: rest =>
      match ofJson? member with
      | some value => entriesOfJson? (Assoc.insert key value stored) rest
      | none => none
end

/-- The value of a JSON text. -/
def parse? (text : String) : Option Value :=
  (Json.parse? text).bind ofJson?

end Value

namespace Declarations

/-- The JSON object of a declaration object. -/
def toJson (d : Declarations) : Json :=
  .object (Value.entriesToJson d)

/-- The declaration object of a JSON value, which must be an object. -/
def ofJson? : Json → Option Declarations
  | .object members => Value.entriesOfJson? [] members
  | _ => none

/-- The text of a declaration object on one line. -/
def compact (d : Declarations) : String :=
  d.toJson.compact

/-- The text of a declaration object with one entry a line. -/
def pretty (d : Declarations) : String :=
  d.toJson.pretty

/-- The declaration object of a JSON text. -/
def parse? (text : String) : Option Declarations :=
  (Json.parse? text).bind ofJson?

end Declarations

end StyleProps
