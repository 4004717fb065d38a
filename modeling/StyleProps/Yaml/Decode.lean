import StyleProps.Yaml.Parser

/-!
# Reading values from YAML nodes

Values of known types from the nodes of a document. An alias is read as the node that it stands for.
A document may follow no more than a hundred aliases for each beginning and end of a node, so that a
short text cannot stand for a huge one.
-/

namespace StyleProps.Yaml

/-- What aliases stand for in a document, and how often that may be asked. -/
structure AliasScope where
  /-- The number of aliases that may be followed. -/
  limit : Nat
  /-- The anchors and their nodes, the last one that begins first. -/
  targets : List (Nat × Node)

namespace AliasScope

/-- The scope of a document with the given root. -/
def ofRoot (root : Node) : AliasScope where
  limit := 100 * root.size
  targets := (root.subnodes.filterMap fun node => node.anchor?.map (·, node)).reverse

/-- The node that an anchor stands for: the last one that begins with it. -/
def target? (scope : AliasScope) (anchor : Nat) : Option Node :=
  scope.targets.lookup anchor

end AliasScope

/-- A reader of values from the nodes of a document. The state counts the aliases that were
followed. -/
abbrev Decode := ReaderT AliasScope (StateT Nat Option)

namespace Decode

/-- A node that is no alias as it is, and the node that an alias stands for. -/
def follow : Node → Decode Node
  | .alias anchor => do
      let scope ← read
      modify (· + 1)
      if scope.limit < (← get) then failure
      match scope.target? anchor with
      | some node => return node
      | none => failure
  | node => return node

/-- The text of a scalar, whatever its style and tag. -/
def text (node : Node) : Decode String := do
  match ← follow node with
  | .scalar _ _ _ content => return content
  | _ => failure

/-- The truth value of a word. -/
def flagOf? : String → Option Bool
  | "true" => some true
  | "True" => some true
  | "TRUE" => some true
  | "false" => some false
  | "False" => some false
  | "FALSE" => some false
  | _ => none

/-- The words for nothing. -/
def isNull (word : String) : Bool :=
  word == "null" || word == "Null" || word == "NULL" || word == "~"

/-- The tag of truth values. -/
def boolTag : String := "tag:yaml.org,2002:bool"

/-- The tag of nothing. -/
def nullTag : String := "tag:yaml.org,2002:null"

/-- The truth value of a plain scalar, or of a literal one with the tag of truth values. -/
def flag (node : Node) : Decode Bool := do
  match ← follow node with
  | .scalar _ tag style content =>
      let isReadable := style == .plain || (style == .literal && tag == some boolTag)
      match if isReadable then flagOf? content else none with
      | some b => return b
      | none => failure
  | _ => failure

/-- The text of a scalar, or nothing for a plain scalar that stands for nothing. -/
def optionalText (node : Node) : Decode (Option String) := do
  match ← follow node with
  | .scalar _ tag .plain content =>
      match tag with
      | some tag =>
          if tag != nullTag then return some content
          else if isNull content then return none
          else failure
      | none => return if content = "" || isNull content then none else some content
  | .scalar _ _ _ content => return some content
  | _ => failure

/-- Whether a node is left out: a plain scalar without text. -/
def isLeftOut : Node → Bool
  | .scalar _ _ .plain content => content == ""
  | _ => false

/-- The items of a sequence. A node that is left out has none. -/
def items {α : Type} (decode : Node → Decode α) (node : Node) : Decode (List α) := do
  match ← follow node with
  | .sequence _ items => items.mapM decode
  | node => if isLeftOut node then return [] else failure

/-- The entries of a mapping with their keys as texts. A node that is left out has none. -/
def entries (node : Node) : Decode (List (String × Node)) := do
  match ← follow node with
  | .mapping _ entries => entries.mapM fun (key, value) => do return (← text key, value)
  | node => if isLeftOut node then return [] else failure

/-- The table of a mapping. A key that is repeated keeps its first position and its last value. -/
def table {α : Type} (decode : Node → Decode α) (node : Node) : Decode (List (String × α)) := do
  (← entries node).mapM fun (key, value) => do return (key, ← decode value)

/-- The fields of a record: entries whose keys are distinct and known. -/
def fields (known : List String) (node : Node) : Decode (List (String × Node)) := do
  let entries ← entries node
  let keys := entries.map Prod.fst
  if keys.all known.contains && keys.eraseDups.length == keys.length then return entries
  else failure

/-- The value of a field, or the given one if the field is missing. -/
def field {α : Type} (fields : List (String × Node)) (name : String) (default : α)
    (decode : Node → Decode α) : Decode α :=
  match fields.lookup name with
  | some node => decode node
  | none => return default

/-- The value of a document. -/
def run? {α : Type} (decode : Node → Decode α) (root : Node) : Option α :=
  (((decode root).run (.ofRoot root)).run 0).map Prod.fst

end Decode

end StyleProps.Yaml
