import StyleProps.Alias.Builtin.Shared

/-!
# Spacing and size aliases

Aliases for padding, margin and size.
-/

namespace StyleProps.Alias.Builtin

/-- The keywords for a size. -/
def sizeKeywords : List (String × String) :=
  [("auto", "auto"), ("full", "100%"), ("min", "min-content"), ("max", "max-content"),
   ("fit", "fit-content")]

/-- The keywords for the bounds of a size. -/
def boundKeywords : List (String × String) :=
  [("px", "1px"), ("min", "min-content"), ("max", "max-content"), ("full", "100%"),
   ("fit", "fit-content")]

/-- Aliases for padding, margin and size. -/
def spacing : List Alias :=
  [spaced "p" "padding",
   spaced "pt" "padding-top",
   spaced "pr" "padding-right",
   spaced "pb" "padding-bottom",
   spaced "pl" "padding-left",
   (properties "py" ["padding-top", "padding-bottom"]).withTable Scale.rem,
   (properties "px" ["padding-left", "padding-right"]).withTable Scale.rem,
   spaced "m" "margin",
   spaced "mt" "margin-top",
   spaced "mr" "margin-right",
   spaced "mb" "margin-bottom",
   spaced "ml" "margin-left",
   (properties "my" ["margin-top", "margin-bottom"]).withTable Scale.rem,
   (properties "mx" ["margin-left", "margin-right"]).withTable Scale.rem,
   sized "w" "width"
    |>.withOptions sizeKeywords
    |>.withOptions [("screen", "100vw")],
   (sized "minW" "min-width").withOptions boundKeywords,
   (sized "maxW" "max-width").withOptions boundKeywords,
   sized "h" "height"
    |>.withOptions sizeKeywords
    |>.withOptions [("screen", "100vh")],
   (sized "minH" "min-height").withOptions boundKeywords,
   (sized "maxH" "max-height").withOptions boundKeywords,
   properties "size" ["width", "height"]
    |>.withTable Scale.rem
    |>.withTable Scale.fraction
    |>.withOptions sizeKeywords
    |>.withOptions [("screen", "100vw")]]

end StyleProps.Alias.Builtin
