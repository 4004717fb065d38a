import StyleProps.Alias.Builtin.Shared

/-!
# Background aliases

Aliases for the background of an element.
-/

namespace StyleProps.Alias.Builtin

/-- The areas of a box. -/
def boxAreas : List (String × String) :=
  [("borderBox", "border-box"), ("paddingBox", "padding-box"), ("contentBox", "content-box")]

/-- Aliases for the background of an element. -/
def background : List Alias :=
  [colored "bg" "background",
   property "bgAttachment" "background-attachment"
    |>.withOptions [("fixed", "fixed"), ("local", "local"), ("scroll", "scroll")],
   property "bgBlendMode" "background-blend-mode"
    |>.withOptions
      [("normal", "normal"), ("multiply", "multiply"), ("screen", "screen"),
       ("overlay", "overlay"), ("darken", "darken"), ("lighten", "lighten"),
       ("colorDodge", "color-dodge"), ("saturation", "saturation"), ("color", "color"),
       ("luminosity", "luminosity")],
   property "bgClip" "background-clip"
    |>.withOptions boxAreas
    |>.withOptions [("text", "text"), ("noClip", "border-area")],
   colored "bgColor" "background-color",
   property "bgImage" "background-image",
   (property "bgOrigin" "background-origin").withOptions boxAreas,
   property "bgPosition" "background-position"
    |>.withOptions
      [("top", "top"), ("bottom", "bottom"), ("left", "left"), ("right", "right"),
       ("center", "center")],
   property "bgPositionX" "background-position-x"
    |>.withOptions [("left", "left"), ("right", "right"), ("center", "center")],
   property "bgPositionY" "background-position-y"
    |>.withOptions [("top", "top"), ("bottom", "bottom"), ("center", "center")],
   property "bgRepeat" "background-repeat"
    |>.withOptions
      [("repeat", "repeat"), ("noRepeat", "no-repeat"), ("repeatX", "repeat-x"),
       ("repeatY", "repeat-y"), ("space", "space"), ("round", "round")],
   property "bgSize" "background-size"
    |>.withOptions [("auto", "auto"), ("cover", "cover"), ("contain", "contain")]]

end StyleProps.Alias.Builtin
