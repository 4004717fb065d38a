import StyleProps.Json.Basic

/-!
# Sorted JSON objects

A JSON value with the members of every object in the order of their names, each name once.
-/

namespace StyleProps.Json

/-- Stores a member in a list of members that is sorted by name. -/
def insertSorted (name : String) (value : Json) : List (String × Json) → List (String × Json)
  | [] => [(name, value)]
  | (other, stored) :: rest =>
      if name < other then (name, value) :: (other, stored) :: rest
      else if name = other then (name, value) :: rest
      else (other, stored) :: insertSorted name value rest

mutual
/-- The value with the members of every object sorted by name; a repeated name keeps its last
value. -/
def sorted : Json → Json
  | .array items => .array (sortedItems items)
  | .object members => .object (sortedMembers [] members)
  | .null => .null
  | .bool b => .bool b
  | .number n => .number n
  | .string content => .string content

/-- The items of an array, each with sorted members. -/
def sortedItems : List Json → List Json
  | [] => []
  | item :: rest => sorted item :: sortedItems rest

/-- Stores the members of an object one by one, sorted by name. -/
def sortedMembers (stored : List (String × Json)) : List (String × Json) → List (String × Json)
  | [] => stored
  | (name, value) :: rest => sortedMembers (insertSorted name (sorted value) stored) rest
end

end StyleProps.Json
