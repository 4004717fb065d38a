import StyleProps.Yaml.Token

/-!
# YAML nodes

A YAML document as a tree. A node may carry an anchor, and an alias stands for the node with its
anchor. Anchors are numbers here: the names of a text are numbered when it is read.
-/

namespace StyleProps.Yaml

/-- A node of a document. -/
inductive Node where
  | scalar (anchor : Option Nat) (tag : Option String) (style : ScalarStyle) (text : String)
  | sequence (anchor : Option Nat) (items : List Node)
  | mapping (anchor : Option Nat) (entries : List (Node × Node))
  | alias (target : Nat)
deriving Repr, Inhabited

namespace Node

/-- A plain scalar without text. It stands where a node is left out. -/
def empty (anchor : Option Nat) (tag : Option String) : Node :=
  .scalar anchor tag .plain ""

/-- The anchor of a node. -/
def anchor? : Node → Option Nat
  | .scalar anchor _ _ _ => anchor
  | .sequence anchor _ => anchor
  | .mapping anchor _ => anchor
  | .alias _ => none

mutual
/-- A node and all nodes inside it, in the order in which they begin. -/
def subnodes : Node → List Node
  | .scalar anchor tag style text => [.scalar anchor tag style text]
  | .sequence anchor items => .sequence anchor items :: itemSubnodes items
  | .mapping anchor entries => .mapping anchor entries :: entrySubnodes entries
  | .alias target => [.alias target]

/-- The nodes inside the items of a sequence. -/
def itemSubnodes : List Node → List Node
  | [] => []
  | item :: rest => subnodes item ++ itemSubnodes rest

/-- The nodes inside the entries of a mapping. -/
def entrySubnodes : List (Node × Node) → List Node
  | [] => []
  | (key, value) :: rest => subnodes key ++ subnodes value ++ entrySubnodes rest
end

/-- What a node counts for by itself: a collection has a beginning and an end. -/
def weight : Node → Nat
  | .sequence _ _ => 2
  | .mapping _ _ => 2
  | _ => 1

/-- The beginnings and ends of all nodes inside a node. -/
def size (node : Node) : Nat :=
  node.subnodes.foldl (fun total inner => total + inner.weight) 0

end Node

end StyleProps.Yaml
