import StyleProps.Alias.Builtin.Shared

/-!
# Flexible box and grid aliases

Aliases for flexible boxes and grids, and the flexible box presets.
-/

namespace StyleProps.Alias.Builtin

/-- The sizes of tracks that are made on demand. -/
def autoTracks : List (String × String) :=
  [("auto", "auto"), ("minContent", "min-content"), ("maxContent", "max-content"),
   ("fr", "minmax(0, 1fr)")]

/-- No tracks, those of the parent grid, and one to twelve equal tracks. -/
def trackValues : List (String × String) :=
  [("none", "none"), ("subgrid", "subgrid")] ++
    (List.range' 1 12).map fun n =>
      (toString n, "repeat(" ++ toString n ++ ", minmax(0, 1fr))")

/-- A placement by itself, over one to twelve tracks, and over all. -/
def spanValues : List (String × String) :=
  [("auto", "auto")] ++
    (List.range' 1 12).map (fun n =>
      ("span" ++ toString n, "span " ++ toString n ++ " / span " ++ toString n)) ++
    [("spanFull", "span 1 / -1")]

/-- Aliases for flexible boxes and grids, and the flexible box presets. -/
def grid : List Alias :=
  [property "basis" "flex-basis"
    |>.withOptions [("auto", "auto")]
    |>.withTable Scale.rem
    |>.withTable Scale.fraction,
   property "flexDirection" "flex-direction"
    |>.withOptions
      [("row", "row"), ("rowReverse", "row-reverse"), ("column", "column"),
       ("columnReverse", "column-reverse")],
   property "flexWrap" "flex-wrap"
    |>.withOptions [("nowrap", "nowrap"), ("wrap", "wrap"), ("wrapReverse", "wrap-reverse")],
   property "flex" "flex"
    |>.withOptions
      [("1", "1 1 0%"), ("auto", "1 1 auto"), ("initial", "0 1 auto"), ("none", "none")],
   property "flexGrow" "flex-grow",
   property "flexShrink" "flex-shrink",
   (property "order" "order").withOptions [("first", "-9999"), ("last", "9999")],
   (property "cols" "grid-template-columns").withOptions trackValues,
   (property "colStart" "grid-column-start").withOptions [("auto", "auto")],
   (property "colEnd" "grid-column-end").withOptions [("auto", "auto")],
   (property "col" "grid-column").withOptions spanValues,
   (property "rows" "grid-template-rows").withOptions trackValues,
   (property "rowStart" "grid-row-start").withOptions [("auto", "auto")],
   (property "rowEnd" "grid-row-end").withOptions [("auto", "auto")],
   (property "row" "grid-row").withOptions spanValues,
   property "autoFlow" "grid-auto-flow"
    |>.withOptions
      [("row", "row"), ("column", "column"), ("rowDense", "row dense"),
       ("columnDense", "column dense")],
   (property "autoCols" "grid-auto-columns").withOptions autoTracks,
   (property "autoRows" "grid-auto-rows").withOptions autoTracks,
   spaced "gap" "gap",
   spaced "gapX" "column-gap",
   spaced "gapY" "row-gap",
   property "justifyContent" "justify-content"
    |>.withOptions
      [("normal", "normal"), ("start", "start"), ("end", "end"), ("flexStart", "flex-start"),
       ("flexEnd", "flex-end"), ("center", "center"), ("between", "space-between"),
       ("around", "space-around"), ("evenly", "space-evenly"), ("stretch", "stretch")],
   property "justifyItems" "justify-items"
    |>.withOptions
      [("start", "start"), ("end", "end"), ("center", "center"), ("stretch", "stretch"),
       ("flexStart", "flex-start"), ("flexEnd", "flex-end")],
   property "justifySelf" "justify-self"
    |>.withOptions
      [("auto", "auto"), ("start", "start"), ("end", "end"), ("center", "center"),
       ("stretch", "stretch"), ("flexStart", "flex-start"), ("flexEnd", "flex-end")],
   property "alignContent" "align-content"
    |>.withOptions
      [("normal", "normal"), ("center", "center"), ("start", "start"), ("end", "end"),
       ("flexStart", "flex-start"), ("flexEnd", "flex-end"), ("between", "space-between"),
       ("around", "space-around"), ("evenly", "space-evenly"), ("stretch", "stretch"),
       ("baseline", "baseline")],
   property "alignItems" "align-items"
    |>.withOptions
      [("flexStart", "flex-start"), ("flexEnd", "flex-end"), ("start", "start"), ("end", "end"),
       ("center", "center"), ("baseline", "baseline"), ("stretch", "stretch")],
   property "alignSelf" "align-self"
    |>.withOptions
      [("auto", "auto"), ("flexStart", "flex-start"), ("flexEnd", "flex-end"), ("start", "start"),
       ("end", "end"), ("center", "center"), ("baseline", "baseline"), ("stretch", "stretch")],
   property "placeContent" "place-content",
   property "placeItems" "place-items",
   property "placeSelf" "place-self",
   flexPreset "flexXY" none true,
   flexPreset "flexRow" none false,
   flexPreset "flexRowReverse" (some "row-reverse") false,
   flexPreset "flexCol" (some "column") false,
   flexPreset "flexColReverse" (some "column-reverse") false]

end StyleProps.Alias.Builtin
