/-!
# JSON values

A JSON document as a tree. An object keeps its members in the order in which they were written, and
a name that was written twice is kept twice: what a repeated name means is left to whoever reads the
document.
-/

namespace StyleProps

/-- A JSON number: an integer, if it was written as one and fits sixty-four bits, or else a
floating-point number. -/
inductive Json.Number where
  | integer (n : Int)
  | float (x : Float)
deriving Repr

/-- A JSON value. -/
inductive Json where
  | null
  | bool (b : Bool)
  | number (n : Json.Number)
  | string (text : String)
  | array (items : List Json)
  | object (members : List (String × Json))
deriving Repr, Inhabited

namespace Json

/-- The number as a floating-point number. -/
def Number.toFloat : Number → Float
  | .integer n => Float.ofInt n
  | .float x => x

/-- The levels of arrays and objects that a reader accepts inside one another. -/
def depthLimit : Nat := 127

mutual
/-- The greatest number of arrays and objects around any part of a value, the value included. -/
def depth : Json → Nat
  | .array items => depthItems items + 1
  | .object members => depthMembers members + 1
  | _ => 0

/-- The greatest depth of the items of an array. -/
def depthItems : List Json → Nat
  | [] => 0
  | item :: rest => max (depth item) (depthItems rest)

/-- The greatest depth of the members of an object. -/
def depthMembers : List (String × Json) → Nat
  | [] => 0
  | (_, value) :: rest => max (depth value) (depthMembers rest)
end

end Json

end StyleProps
