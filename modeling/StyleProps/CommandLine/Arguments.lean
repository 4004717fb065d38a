/-!
# Arguments of the command line

The arguments are options and props. `Arguments.parse?` takes them apart from left to right. It
refuses unknown options, options that are given twice or lack a value, and options that exclude each
other. Asking for the version ends the reading where it stands.
-/

namespace StyleProps.CommandLine

/-- A table whose names can be listed. -/
inductive Listing where
  | aliases
  | media
  | selectors
deriving DecidableEq, Repr

/-- The table that a word names. -/
def Listing.ofWord? : String → Option Listing
  | "aliases" => some .aliases
  | "media" => some .media
  | "selectors" => some .selectors
  | _ => none

/-- An option without a value. -/
inductive Flag where
  | strict
  | compact
  | version
deriving DecidableEq, Repr

/-- An option with a value. -/
inductive Setting where
  | input
  | config
  | list
deriving DecidableEq, Repr

/-- An argument, taken by itself. -/
inductive Argument where
  /-- The mark after which every argument is a prop. -/
  | endOfOptions
  /-- An option without a value. -/
  | flag (flag : Flag)
  /-- An option with a value, which may stand in the same argument. -/
  | setting (setting : Setting) (attached : Option String)
  /-- A prop. -/
  | prop (text : String)
  /-- Anything else. -/
  | unknown
deriving DecidableEq, Repr

namespace Argument

/-- The value that is attached with an equals sign. -/
def attached : List Char → Option String
  | '=' :: value => some (String.ofList value)
  | _ => none

/-- An option with a long name and what follows the name. -/
def ofLong (name : String) (value : Option String) : Argument :=
  match name, value with
  | "strict", none => .flag .strict
  | "compact", none => .flag .compact
  | "version", none => .flag .version
  | "input", value => .setting .input value
  | "config", value => .setting .config value
  | "list", value => .setting .list value
  | _, _ => .unknown

/-- The value in the same argument as a short name, after an equals sign or not. -/
def afterShort : List Char → Option String
  | [] => none
  | '=' :: value => some (String.ofList value)
  | value => some (String.ofList value)

/-- What an argument is. -/
def ofText (text : String) : Argument :=
  match text.toList with
  | ['-', '-'] => .endOfOptions
  | '-' :: '-' :: rest =>
      let name := rest.takeWhile (· != '=')
      ofLong (String.ofList name) (attached (rest.drop name.length))
  | '-' :: 'V' :: _ => .flag .version
  | '-' :: 'i' :: rest => .setting .input (afterShort rest)
  | '-' :: 'c' :: rest => .setting .config (afterShort rest)
  | '-' :: _ :: _ => .unknown
  | _ => .prop text

/-- Whether an argument can be the value of the option before it: it must not look like an option. A
dash alone does not. -/
def isValue (text : String) : Bool :=
  match text.toList with
  | '-' :: _ :: _ => false
  | _ => true

end Argument

/-- The arguments, taken apart. -/
structure Arguments where
  /-- The file that holds the props. -/
  input : Option String
  /-- The file that extends the configuration. -/
  config : Option String
  /-- Whether every part that is passed over is reported, and every problem is a failure. -/
  strict : Bool
  /-- Whether the declarations are written on one line. -/
  compact : Bool
  /-- The table whose names are listed. -/
  list : Option Listing
  /-- The props. -/
  props : List String
deriving DecidableEq, Repr

/-- What the arguments ask for. -/
inductive Request where
  | version
  | run (arguments : Arguments)
deriving DecidableEq, Repr

namespace Arguments

/-- No arguments. -/
def none : Arguments := ⟨.none, .none, false, false, .none, []⟩

/-- Sets an option, which must not be set before. -/
def set? (arguments : Arguments) (setting : Setting) (value : String) : Option Arguments :=
  match setting with
  | .input => if arguments.input.isSome then .none else some { arguments with input := value }
  | .config => if arguments.config.isSome then .none else some { arguments with config := value }
  | .list =>
      if arguments.list.isSome then .none
      else (Listing.ofWord? value).map fun listing => { arguments with list := listing }

/-- Whether options are set that exclude each other, or exclude props. -/
def hasConflict (arguments : Arguments) : Bool :=
  (arguments.input.isSome && !arguments.props.isEmpty) ||
    (arguments.list.isSome && (!arguments.props.isEmpty || arguments.input.isSome))

/-- The request for complete arguments. -/
def finish? (arguments : Arguments) : Option Request :=
  if arguments.hasConflict then .none else some (.run arguments)

/-- Arguments are what is asked for, if they are not in conflict. -/
theorem finish?_eq_some_iff {a o : Arguments} :
    a.finish? = some (.run o) ↔ a.hasConflict = false ∧ a = o := by
  unfold finish?
  split <;> simp_all

/-- Takes further arguments. -/
def parseFrom? (arguments : Arguments) : List String → Option Request
  | [] => arguments.finish?
  | text :: rest =>
      match Argument.ofText text with
      | .unknown => .none
      | .endOfOptions => finish? { arguments with props := arguments.props ++ rest }
      | .prop prop => parseFrom? { arguments with props := arguments.props ++ [prop] } rest
      | .flag .version => some .version
      | .flag .strict =>
          if arguments.strict then .none else parseFrom? { arguments with strict := true } rest
      | .flag .compact =>
          if arguments.compact then .none else parseFrom? { arguments with compact := true } rest
      | .setting setting (some value) =>
          match arguments.set? setting value with
          | some arguments => parseFrom? arguments rest
          | .none => .none
      | .setting setting .none =>
          match rest with
          | [] => .none
          | value :: rest =>
              if !Argument.isValue value then .none
              else
                match arguments.set? setting value with
                | some arguments => parseFrom? arguments rest
                | .none => .none

/-- What the arguments ask for, or `none` if they are refused. -/
def parse? (texts : List String) : Option Request :=
  parseFrom? none texts

end Arguments

end StyleProps.CommandLine
