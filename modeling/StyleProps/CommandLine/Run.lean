import StyleProps.CommandLine.Arguments
import StyleProps.Config.Document
import StyleProps.Declaration.Json
import StyleProps.Resolution

/-!
# Runs of the command line

A run reads props from its arguments, from a file or from standard input, resolves them, and writes
the declarations; diagnostics become warnings. `run` gives the whole run as a function of the
arguments and of what can be read.
-/

namespace StyleProps.CommandLine

/-- Why a text cannot be read. -/
inductive ReadFault where
  | missing
  | notText
deriving DecidableEq, Repr

/-- The text for a fault. -/
def ReadFault.text : ReadFault → String
  | .missing => "No such file or directory (os error 2)"
  | .notText => "stream did not contain valid UTF-8"

/-- The text that bytes stand for. -/
def textOfBytes (bytes : ByteArray) : Except ReadFault String :=
  match String.fromUTF8? bytes with
  | some text => .ok text
  | none => .error .notText

/-- What a run can read. -/
structure Sources where
  /-- The file of a path. -/
  file : String → Except ReadFault String
  /-- Standard input. -/
  standardInput : Except ReadFault String

/-- What ends a run before it is complete. -/
inductive Failure where
  /-- The file of the configuration cannot be read. -/
  | unreadableConfig (path : String) (fault : ReadFault)
  /-- The file of the configuration cannot be applied. -/
  | invalidConfig (path : String) (error : ConfigError)
  /-- The file of the props cannot be read. -/
  | unreadableFile (path : String) (fault : ReadFault)
  /-- Standard input cannot be read. -/
  | unreadableInput (fault : ReadFault)
  /-- The text of the props is no JSON object. -/
  | noObject
  /-- An argument is no prop. -/
  | noProp (argument : String)
  /-- In strict mode, there were problems. -/
  | problems (count : Nat)
deriving DecidableEq, Repr

/-- The text for a failure. Where the text of the props is no JSON object, a colon and the account
of a JSON reader could follow; this part is left out. -/
def Failure.text : Failure → String
  | .unreadableConfig path fault =>
      "loading configuration from " ++ path ++ ": failed to read config '" ++ path ++ "': " ++
        fault.text ++ ": " ++ fault.text
  | .invalidConfig path error => "loading configuration from " ++ path ++ ": " ++ error.text
  | .unreadableFile path fault => "reading props from " ++ path ++ ": " ++ fault.text
  | .unreadableInput fault => "reading props from stdin: " ++ fault.text
  | .noObject => "props must be a JSON object"
  | .noProp argument => "expected NAME=VALUE, got '" ++ argument ++ "'"
  | .problems count => toString count ++ " diagnostic(s) in strict mode"

/-- What a run leaves behind. -/
structure Report where
  /-- The exit code. -/
  code : Nat
  /-- What is written to standard output. -/
  output : String
  /-- The messages that are written to standard error, each on a line of its own. -/
  messages : List String
deriving DecidableEq, Repr

/-- The text that asks for the version. -/
def versionText : String := "proper 0.3.0\n"

/-- The configuration of a run. -/
def loadConfig (sources : Sources) (arguments : Arguments) : Except Failure Config :=
  match arguments.config with
  | none => .ok Config.builtin
  | some path =>
      match sources.file path with
      | .error fault => .error (.unreadableConfig path fault)
      | .ok text => (Config.builtin.extend text).mapError (.invalidConfig path)

/-- The name and the value of a prop that is given as an argument. -/
def propOfArgument (argument : String) : Except Failure (String × PropValue) :=
  match Text.cut? '=' argument.toList with
  | some (name, value) => .ok (String.ofList name, .text (String.ofList value))
  | none => .error (.noProp argument)

/-- The props of a JSON text. -/
def propsOfJson (text : String) : Except Failure Props :=
  match Props.parse? text with
  | some props => .ok props
  | none => .error .noObject

/-- The text of the props that are not given as arguments. A dash stands for standard input. -/
def readProps (sources : Sources) (input : Option String) : Except Failure String :=
  -- Without an input option, props are read from standard input too.
  let path := input.getD "-"
  if path = "-" then sources.standardInput.mapError .unreadableInput
  else (sources.file path).mapError (.unreadableFile path)

/-- The props of a run. -/
def loadProps (sources : Sources) (arguments : Arguments) : Except Failure Props :=
  match arguments.props with
  | [] => (readProps sources arguments.input).bind propsOfJson
  | props => (props.mapM propOfArgument).map Table.ofList

/-- The names in a table of a configuration. -/
def namesOf (config : Config) : Listing → List String
  | .aliases => config.aliases.names
  | .media => config.media.names
  | .selectors => config.scopes.names

/-- Lines, each with its end. -/
def linesOf (lines : List String) : String :=
  String.join (lines.map (· ++ "\n"))

/-- The message of a failure. -/
def errorMessage (failure : Failure) : String :=
  "error: " ++ failure.text

/-- The message of a diagnostic. -/
def warning (diagnostic : Diagnostic) : String :=
  "warning: " ++ diagnostic.text

/-- The report of a run that fails before it writes anything. -/
def failed (failure : Failure) : Report :=
  ⟨1, "", [errorMessage failure]⟩

/-- The report of a resolution. In strict mode it fails if there are diagnostics. -/
def report (arguments : Arguments) (resolution : Resolution) : Report :=
  let declarations := resolution.declarations
  let text := if arguments.compact then declarations.compact else declarations.pretty
  let warnings := resolution.diagnostics.map warning
  if arguments.strict && !resolution.isClean then
    ⟨1, text ++ "\n",
      warnings ++ [errorMessage (.problems resolution.diagnostics.length)]⟩
  else ⟨0, text ++ "\n", warnings⟩

/-- The run that arguments ask for. The configuration is read before the props. -/
def execute (sources : Sources) (arguments : Arguments) : Report :=
  match loadConfig sources arguments with
  | .error failure => failed failure
  | .ok config =>
      match arguments.list with
      | some listing => ⟨0, linesOf (namesOf config listing), []⟩
      | none =>
          match loadProps sources arguments with
          | .error failure => failed failure
          | .ok props =>
              let resolver : Resolver := ⟨config, arguments.strict⟩
              report arguments (resolver.resolve props)

/-- The report of a run whose arguments are refused. The message is a fixed one and does not say
which argument is to blame. -/
def refused : Report :=
  ⟨2, "", ["error: invalid arguments"]⟩

/-- A run of the command line. -/
def run (sources : Sources) (texts : List String) : Report :=
  match Arguments.parse? texts with
  | none => refused
  | some .version => ⟨0, versionText, []⟩
  | some (.run arguments) => execute sources arguments

/-- The files that a run may read. -/
def filesOf (texts : List String) : List String :=
  match Arguments.parse? texts with
  | some (.run arguments) => arguments.config.toList ++ arguments.input.toList
  | _ => []

/-- Whether a run reads standard input. -/
def readsInput (texts : List String) : Bool :=
  match Arguments.parse? texts with
  | some (.run arguments) =>
      arguments.list.isNone && arguments.props.isEmpty && arguments.input.getD "-" == "-"
  | _ => false

end StyleProps.CommandLine
