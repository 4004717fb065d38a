import StyleProps.Alias.Builtin.Shared

/-!
# Border aliases

Aliases for borders and rounded corners.
-/

namespace StyleProps.Alias.Builtin

/-- The styles of a border. -/
def borderStyles : List (String × String) :=
  [("none", "none"), ("solid", "solid"), ("dotted", "dotted"), ("dashed", "dashed"),
   ("double", "double"), ("groove", "groove"), ("ridge", "ridge"), ("inset", "inset"),
   ("outset", "outset")]

/-- Aliases for borders and rounded corners. -/
def border : List Alias :=
  [property "border" "border",
   property "borderTop" "border-top",
   property "borderRight" "border-right",
   property "borderBottom" "border-bottom",
   property "borderLeft" "border-left",
   colored "borderColor" "border-color",
   property "borderWidth" "border-width",
   (property "borderStyle" "border-style").withOptions borderStyles,
   property "borderCollapse" "border-collapse"
    |>.withOptions [("collapse", "collapse"), ("separate", "separate")],
   property "borderSpacing" "border-spacing",
   property "borderImage" "border-image",
   property "borderImageOutset" "border-image-outset",
   property "borderImageRepeat" "border-image-repeat"
    |>.withOptions
      [("stretch", "stretch"), ("repeat", "repeat"), ("round", "round"), ("space", "space")],
   property "borderImageSlice" "border-image-slice",
   property "borderImageSource" "border-image-source",
   property "borderImageWidth" "border-image-width",
   property "radius" "border-radius",
   property "radiusTl" "border-top-left-radius",
   property "radiusTR" "border-top-right-radius",
   property "radiusBL" "border-bottom-left-radius",
   property "radiusBR" "border-bottom-right-radius"]

end StyleProps.Alias.Builtin
