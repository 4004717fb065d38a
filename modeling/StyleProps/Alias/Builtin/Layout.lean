import StyleProps.Alias.Builtin.Shared

/-!
# Layout aliases

Aliases for the box model, the display and the position of an element.
-/

namespace StyleProps.Alias.Builtin

/-- Where a box may be broken. -/
def breakValues : List (String × String) :=
  [("auto", "auto"), ("avoid", "avoid"), ("all", "all"), ("avoidPage", "avoid-page"),
   ("page", "page"), ("left", "left"), ("right", "right"), ("column", "column")]

/-- What happens to content that does not fit. -/
def overflowValues : List (String × String) :=
  [("auto", "auto"), ("hidden", "hidden"), ("clip", "clip"), ("visible", "visible"),
   ("scroll", "scroll")]

/-- What happens at the end of a scroll area. -/
def overscrollValues : List (String × String) :=
  [("auto", "auto"), ("contain", "contain"), ("none", "none")]

/-- Aliases for the box model, the display and the position of an element. -/
def layout : List Alias :=
  [property "aspect" "aspect-ratio"
    |>.withOptions
      [("auto", "auto"), ("square", "1 / 1"), ("widescreen", "16 / 9"), ("standard", "4 / 3"),
       ("photo", "3 / 2"), ("cinema", "2.39 / 1"), ("ultrawide", "21 / 9"),
       ("vertical", "9 / 16")],
   property "columns" "columns",
   property "columnCount" "column-count",
   property "columnFill" "column-fill",
   property "columnsGap" "column-gap",
   property "columnRule" "column-rule",
   property "columnRuleColor" "column-rule-color",
   property "columnRuleStyle" "column-rule-style",
   property "columnRuleWidth" "column-rule-width",
   property "columnSpan" "column-span",
   property "columnWidth" "column-width",
   (property "breakAfter" "break-after").withOptions breakValues,
   (property "breakBefore" "break-before").withOptions breakValues,
   property "breakInside" "break-inside"
    |>.withOptions
      [("auto", "auto"), ("avoid", "avoid"), ("avoidPage", "avoid-page"),
       ("avoidColumn", "avoid-column")],
   property "boxDecorationBreak" "box-decoration-break"
    |>.withOptions [("slice", "slice"), ("clone", "clone")],
   property "boxSizing" "box-sizing"
    |>.withOptions [("border", "border-box"), ("content", "content-box")],
   property "display" "display"
    |>.withOptions
      [("hidden", "none"), ("block", "block"), ("inline", "inline"), ("flex", "flex"),
       ("grid", "grid"), ("table", "table"), ("inlineBlock", "inline-block"),
       ("inlineFlex", "inline-flex"), ("inlineGrid", "inline-grid"),
       ("inlineTable", "inline-table"), ("tableCaption", "table-caption"),
       ("tableCell", "table-cell"), ("tableColumn", "table-column"),
       ("tableRowGroup", "table-row-group"), ("tableRow", "table-row"), ("flowRoot", "flow-root"),
       ("contents", "contents"), ("listItem", "list-item"),
       ("tableColumnGroup", "table-column-group"), ("tableFooterGroup", "table-footer-group"),
       ("tableHeaderGroup", "table-header-group")],
   property "float" "float"
    |>.withOptions
      [("start", "inline-start"), ("end", "inline-end"), ("left", "left"), ("right", "right"),
       ("none", "none")],
   property "clear" "clear"
    |>.withOptions
      [("none", "none"), ("start", "inline-start"), ("end", "inline-end"), ("left", "left"),
       ("right", "right"), ("both", "both")],
   (property "isolation" "isolation").withOptions [("auto", "auto"), ("isolate", "isolate")],
   property "objectFit" "object-fit"
    |>.withOptions
      [("contain", "contain"), ("cover", "cover"), ("fill", "fill"), ("none", "none"),
       ("scaleDown", "scale-down")],
   property "objectPosition" "object-position"
    |>.withOptions
      [("bottom", "bottom"), ("center", "center"), ("left", "left"),
       ("leftBottom", "left bottom"), ("leftTop", "left top"), ("right", "right"),
       ("rightBottom", "right bottom"), ("rightTop", "right top"), ("top", "top")],
   (property "overflow" "overflow").withOptions overflowValues,
   (property "overflowX" "overflow-x").withOptions overflowValues,
   (property "overflowY" "overflow-y").withOptions overflowValues,
   property "overflowWrap" "overflow-wrap"
    |>.withOptions
      [("normal", "normal"), ("breakWord", "break-word"), ("anywhere", "anywhere")],
   (property "overscrollBehavior" "overscroll-behavior").withOptions overscrollValues,
   (property "overscrollBehaviorX" "overscroll-behavior-x").withOptions overscrollValues,
   (property "overscrollBehaviorY" "overscroll-behavior-y").withOptions overscrollValues,
   property "position" "position"
    |>.withOptions
      [("static", "static"), ("relative", "relative"), ("absolute", "absolute"),
       ("fixed", "fixed"), ("sticky", "sticky")],
   spaced "top" "top",
   spaced "right" "right",
   spaced "bottom" "bottom",
   spaced "left" "left",
   spaced "inset" "inset",
   property "visibility" "visibility"
    |>.withOptions [("visible", "visible"), ("hidden", "hidden"), ("collapse", "collapse")],
   property "zIndex" "z-index"]

end StyleProps.Alias.Builtin
