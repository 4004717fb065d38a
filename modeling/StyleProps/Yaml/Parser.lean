import StyleProps.Yaml.Node
import StyleProps.Yaml.Lexer

/-!
# Reading YAML documents

The document of a sequence of tokens. A text holds at most one document: it may be empty, and after
its document only marks of its end may follow. `parse?` reads a text.
-/

namespace StyleProps.Yaml

/-- What a tag handle stands for if no directive says otherwise. -/
def defaultHandles : List (String × String) :=
  [("!", "!"), ("!!", "tag:yaml.org,2002:")]

/-- The state of reading nodes. -/
structure Parser where
  /-- The tokens from here on. -/
  tokens : List Token
  /-- What tag handles stand for; the first entry of a handle counts. -/
  handles : List (String × String)
  /-- The names of anchors and their numbers. -/
  anchors : List (String × Nat)

/-- A reader of part of a document. -/
abbrev Parse := StateT Parser Option

namespace Parse

/-- The next token, or `none` at the end. -/
def peek : Parse (Option Token) := do
  return (← get).tokens.head?

/-- Passes over a token. -/
def skip : Parse Unit :=
  modify fun p => { p with tokens := p.tokens.tail }

/-- Whether the next token is the given one. -/
def isNext (token : Token) : Parse Bool := do
  return (← peek) == some token

/-- Passes over the given token; it fails if another one comes next. -/
def expect (token : Token) : Parse Unit := do
  if ← isNext token then skip else failure

/-- The number of a new anchor: how many names are known. A name that is known gets a new number. -/
def newAnchor (name : String) : Parse Nat := do
  let p ← get
  let number := p.anchors.length
  let others := p.anchors.map fun (other, n) => (other, if other = name then number else n)
  let anchors := if (p.anchors.lookup name).isSome then others else others ++ [(name, number)]
  set { p with anchors }
  return number

/-- The number of the anchor that an alias names. -/
def knownAnchor (name : String) : Parse Nat := do
  match (← get).anchors.lookup name with
  | some number => return number
  | none => failure

/-- The tag that a handle and a suffix stand for. -/
def tagOf (handle suffix : String) : Parse String := do
  if handle = "" then return suffix
  match (← get).handles.lookup handle with
  | some start => return start ++ suffix
  | none => failure

/-- The anchor that comes next, if there is one. -/
def anchor : Parse (Option Nat) := do
  match ← peek with
  | some (.anchor name) => skip; return some (← newAnchor name)
  | _ => return none

/-- The tag that comes next, if there is one. -/
def tag : Parse (Option (String × String)) := do
  match ← peek with
  | some (.tag handle suffix) => skip; return some (handle, suffix)
  | _ => return none

/-- The anchor and the tag that come next, in either order, if there are any. -/
def properties : Parse (Option Nat × Option String) := do
  let first ← anchor
  let tag ← tag
  let second ← if first.isNone && tag.isSome then anchor else pure none
  let tag ← tag.mapM fun (handle, suffix) => tagOf handle suffix
  return (first <|> second, tag)

/-- Whether a token may stand where a node is left out in a block mapping. -/
def endsBlockNode : Option Token → Bool
  | some .key => true
  | some .value => true
  | some .blockEnd => true
  | _ => false

/-- Whether a token may stand where a value is left out in a flow mapping. -/
def endsFlowNode : Option Token → Bool
  | some .flowEntry => true
  | some .flowMappingEnd => true
  | _ => false

/-- The place of a node: it decides which collections may begin there. -/
structure Place where
  /-- Whether block collections may begin. -/
  block : Bool
  /-- Whether a block sequence may begin without being indented. -/
  unindented : Bool

/-- Inside a flow collection. -/
def Place.flow : Place := ⟨false, false⟩

/-- Inside a block sequence, or at the beginning of a document. -/
def Place.item : Place := ⟨true, false⟩

/-- Inside a block mapping. -/
def Place.member : Place := ⟨true, true⟩

mutual
/-- A node. -/
def node (fuel : Nat) (place : Place) : Parse Node :=
  match fuel with
  | 0 => failure
  | fuel + 1 => do
      if let some (.alias name) ← peek then
        skip
        return .alias (← knownAnchor name)
      -- After an anchor or a tag the node itself may be left out, and an alias may not follow.
      let (anchor, tag) ← properties
      match ← peek with
      | some (.scalar style text) =>
          skip
          return .scalar anchor tag style text
      | some .flowSequenceStart =>
          skip
          return .sequence anchor (← flowItems fuel true)
      | some .flowMappingStart =>
          skip
          return .mapping anchor (← flowMembers fuel true)
      | some .blockEntry =>
          if place.unindented then return .sequence anchor (← unindentedItems fuel)
          else omitted anchor tag
      | some .blockSequenceStart =>
          if place.block then
            skip
            return .sequence anchor (← blockItems fuel)
          else omitted anchor tag
      | some .blockMappingStart =>
          if place.block then
            skip
            return .mapping anchor (← blockMembers fuel)
          else omitted anchor tag
      | _ => omitted anchor tag

/-- A node that is left out after its anchor or tag. -/
def omitted (anchor : Option Nat) (tag : Option String) : Parse Node :=
  if anchor.isSome || tag.isSome then pure (.empty anchor tag) else failure

/-- A node, unless it is left out. -/
def optional (fuel : Nat) (place : Place) (isOmitted : Bool) : Parse Node :=
  match fuel with
  | 0 => failure
  | fuel + 1 => if isOmitted then pure (.empty none none) else node fuel place

/-- The items of a block sequence up to its end. -/
def blockItems (fuel : Nat) : Parse (List Node) :=
  match fuel with
  | 0 => failure
  | fuel + 1 => do
      if ← isNext .blockEnd then
        skip
        return []
      expect .blockEntry
      let next ← peek
      let item ← optional fuel .item (next == some .blockEntry || next == some .blockEnd)
      return item :: (← blockItems fuel)

/-- The items of a block sequence that is not indented. -/
def unindentedItems (fuel : Nat) : Parse (List Node) :=
  match fuel with
  | 0 => failure
  | fuel + 1 => do
      if !(← isNext .blockEntry) then return []
      skip
      let next ← peek
      let item ← optional fuel .item (next == some .blockEntry || endsBlockNode next)
      return item :: (← unindentedItems fuel)

/-- The members of a block mapping up to its end. -/
def blockMembers (fuel : Nat) : Parse (List (Node × Node)) :=
  match fuel with
  | 0 => failure
  | fuel + 1 => do
      if ← isNext .blockEnd then
        skip
        return []
      expect .key
      let key ← optional fuel .member (endsBlockNode (← peek))
      let value ← blockValue fuel
      return (key, value) :: (← blockMembers fuel)

/-- The value of a member of a block mapping. -/
def blockValue (fuel : Nat) : Parse Node :=
  match fuel with
  | 0 => failure
  | fuel + 1 => do
      if ← isNext .value then
        skip
        optional fuel .member (endsBlockNode (← peek))
      else return .empty none none

/-- The items of a flow sequence up to its end. -/
def flowItems (fuel : Nat) (isFirst : Bool) : Parse (List Node) :=
  match fuel with
  | 0 => failure
  | fuel + 1 => do
      if ← isNext .flowSequenceEnd then
        skip
        return []
      if !isFirst then expect .flowEntry
      if ← isNext .flowSequenceEnd then
        skip
        return []
      let item ← flowItem fuel
      return item :: (← flowItems fuel false)

/-- An item of a flow sequence: a node, or a mapping of a single member without braces. -/
def flowItem (fuel : Nat) : Parse Node :=
  match fuel with
  | 0 => failure
  | fuel + 1 => do
      if ← isNext .key then
        skip
        let next ← peek
        let ends := next == some .flowEntry || next == some .flowSequenceEnd
        let key ← optional fuel .flow (ends || next == some .value)
        if ← isNext .value then
          skip
          let next ← peek
          let ends := next == some .flowEntry || next == some .flowSequenceEnd
          let value ← optional fuel .flow ends
          return .mapping none [(key, value)]
        else return .mapping none [(key, .empty none none)]
      else node fuel .flow

/-- The members of a flow mapping up to its end. -/
def flowMembers (fuel : Nat) (isFirst : Bool) : Parse (List (Node × Node)) :=
  match fuel with
  | 0 => failure
  | fuel + 1 => do
      if ← isNext .flowMappingEnd then
        skip
        return []
      if !isFirst then expect .flowEntry
      if ← isNext .flowMappingEnd then
        skip
        return []
      let member ← flowMember fuel
      return member :: (← flowMembers fuel false)

/-- A member of a flow mapping. Without the mark of a key it is a key alone. -/
def flowMember (fuel : Nat) : Parse (Node × Node) :=
  match fuel with
  | 0 => failure
  | fuel + 1 => do
      if ← isNext .key then
        skip
        let next ← peek
        let key ← optional fuel .flow (endsFlowNode next || next == some .value)
        if ← isNext .value then
          skip
          return (key, ← optional fuel .flow (endsFlowNode (← peek)))
        else return (key, .empty none none)
      else return (← node fuel .flow, .empty none none)
end

/-- The directives in front of a document. The version must be 1.1 or 1.2 and may be given once, and
a handle may be defined once. -/
def directives (hasVersion : Bool) : (fuel : Nat) → Parse Unit
  | 0 => failure
  | fuel + 1 => do
      match ← peek with
      | some (.versionDirective major minor) =>
          if hasVersion || major != 1 || !(minor == 1 || minor == 2) then failure
          skip
          directives true fuel
      | some (.tagDirective handle start) =>
          let p ← get
          if (p.handles.lookup handle).isSome then failure
          set { p with handles := p.handles ++ [(handle, start)] }
          skip
          directives hasVersion fuel
      | _ => modify fun p => { p with handles := p.handles ++ defaultHandles }

/-- Whether a document that was started is left empty before a token. -/
def endsDocument : Option Token → Bool
  | none => true
  | some (.versionDirective _ _) => true
  | some (.tagDirective _ _) => true
  | some .documentStart => true
  | some .documentEnd => true
  | _ => false

/-- Whether a document has an explicit start, which directives and a mark of its start show. -/
def startsExplicitly : Option Token → Bool
  | some (.versionDirective _ _) => true
  | some (.tagDirective _ _) => true
  | some .documentStart => true
  | _ => false

/-- The only document of a text, or `none` if the text is empty. -/
def document (fuel : Nat) : Parse (Option Node) := do
  let next ← peek
  if next.isNone then return none
  let isExplicit := startsExplicitly next
  directives false fuel
  if isExplicit then expect .documentStart
  let root ← optional fuel .item (isExplicit && endsDocument (← peek))
  modify fun p => { p with tokens := p.tokens.dropWhile (· == .documentEnd) }
  if (← peek).isSome then failure
  return some root

end Parse

/-- The only document of a YAML text. It fails on a text that is no YAML or holds a second document,
and the outer result is that of a text without a document. -/
def parse? (text : String) : Option (Option Node) :=
  match lex? text with
  | none => none
  | some tokens =>
      ((Parse.document (4 * tokens.length + 4)).run ⟨tokens, [], []⟩).map Prod.fst

end StyleProps.Yaml
