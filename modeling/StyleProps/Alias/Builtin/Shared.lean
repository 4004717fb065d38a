import StyleProps.Alias.Basic
import StyleProps.Alias.Palette
import StyleProps.Alias.Scale

/-!
# Common kinds of aliases

Aliases of one property that know the values of a shared table.
-/

namespace StyleProps.Alias.Builtin

/-- An alias that knows the spacing scale. -/
def spaced (name property : String) : Alias :=
  (Alias.property name property).withTable Scale.rem

/-- An alias that knows the spacing scale and the fractions. -/
def sized (name property : String) : Alias :=
  (spaced name property).withTable Scale.fraction

/-- An alias that knows the colors. -/
def colored (name property : String) : Alias :=
  (Alias.property name property).withTable Palette.color

end StyleProps.Alias.Builtin
