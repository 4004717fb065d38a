import StyleProps.Alias.Builtin.Shared

/-!
# Further aliases

Aliases for filters, interaction, tables, clipping, counters, scrolling, shapes and rendering. None
of them has symbolic values; `visibility` therefore loses those that the layout aliases give it.
-/

namespace StyleProps.Alias.Builtin

/-- The names of the aliases, with the property of each. -/
def furtherProperties : List (String × String) :=
  [("filter", "filter"),
   ("backdropFilter", "backdrop-filter"),
   ("mixBlendMode", "mix-blend-mode"),
   ("cursor", "cursor"),
   ("userSelect", "user-select"),
   ("pointerEvents", "pointer-events"),
   ("tableLayout", "table-layout"),
   ("emptyCells", "empty-cells"),
   ("opacity", "opacity"),
   ("visibility", "visibility"),
   ("resize", "resize"),
   ("clip", "clip"),
   ("clipPath", "clip-path"),
   ("mask", "mask"),
   ("maskType", "mask-type"),
   ("caretColor", "caret-color"),
   ("direction", "direction"),
   ("quotes", "quotes"),
   ("counterIncrement", "counter-increment"),
   ("counterReset", "counter-reset"),
   ("scrollBehavior", "scroll-behavior"),
   ("scrollSnapAlign", "scroll-snap-align"),
   ("scrollSnapStop", "scroll-snap-stop"),
   ("scrollSnapType", "scroll-snap-type"),
   ("shapeImageThreshold", "shape-image-threshold"),
   ("shapeMargin", "shape-margin"),
   ("shapeOutside", "shape-outside"),
   ("imageRendering", "image-rendering"),
   ("willChange", "will-change"),
   ("uBidi", "unicode-bidi"),
   ("orphans", "orphans"),
   ("widows", "widows")]

/-- Aliases for the remaining properties. -/
def further : List Alias :=
  furtherProperties.map fun (name, property) => .property name property

end StyleProps.Alias.Builtin
