import StyleProps.Alias.Builtin.Shared

/-!
# Shadow and outline aliases

Aliases for shadows and outlines.
-/

namespace StyleProps.Alias.Builtin

/-- Aliases for shadows and outlines. -/
def shadow : List Alias :=
  [property "boxShadow" "box-shadow"
    |>.withOptions
      [("none", "none"), ("light", "0px 1px 3px rgba(0, 0, 0, 0.1)"),
       ("medium", "0px 4px 6px rgba(0, 0, 0, 0.1)"),
       ("heavy", "0px 10px 20px rgba(0, 0, 0, 0.2)")],
   property "outline" "outline"
    |>.withOptions
      [("none", "none"), ("solid", "1px solid"), ("dashed", "1px dashed"),
       ("dotted", "1px dotted")],
   property "outlineColor" "outline-color"
    |>.withOptions
      [("primary", "#3498db"), ("secondary", "#2ecc71"), ("error", "#e74c3c"),
       ("default", "#333")],
   property "outlineStyle" "outline-style"
    |>.withOptions
      [("solid", "solid"), ("dashed", "dashed"), ("dotted", "dotted"), ("double", "double")],
   property "outlineWidth" "outline-width"
    |>.withOptions [("thin", "1px"), ("medium", "2px"), ("thick", "3px")]]

end StyleProps.Alias.Builtin
