import StyleProps.Alias.Builtin.Animation
import StyleProps.Alias.Builtin.Background
import StyleProps.Alias.Builtin.Border
import StyleProps.Alias.Builtin.Further
import StyleProps.Alias.Builtin.Grid
import StyleProps.Alias.Builtin.Layout
import StyleProps.Alias.Builtin.Shadow
import StyleProps.Alias.Builtin.Spacing
import StyleProps.Alias.Builtin.Typography

/-!
# Built-in aliases

All groups of built-in aliases, in the order in which they are registered.
-/

namespace StyleProps.AliasTable

/-- The definitions of the built-in aliases. A later one replaces an earlier one of its name. -/
def builtinEntries : List Alias :=
  Alias.Builtin.layout ++ Alias.Builtin.grid ++ Alias.Builtin.spacing ++
    Alias.Builtin.typography ++ Alias.Builtin.background ++ Alias.Builtin.border ++
    Alias.Builtin.shadow ++ Alias.Builtin.animation ++ Alias.Builtin.further

/-- The built-in aliases. -/
def builtin : AliasTable :=
  registerAll Table.empty builtinEntries

end StyleProps.AliasTable
