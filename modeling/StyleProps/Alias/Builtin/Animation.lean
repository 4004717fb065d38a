import StyleProps.Alias.Builtin.Shared

/-!
# Animation aliases

Aliases for animations, transitions and transforms.
-/

namespace StyleProps.Alias.Builtin

/-- Aliases for animations, transitions and transforms. -/
def animation : List Alias :=
  [property "animation" "animation",
   property "animationDelay" "animation-delay",
   property "animationDirection" "animation-direction"
    |>.withOptions
      [("normal", "normal"), ("reverse", "reverse"), ("alternate", "alternate"),
       ("alternateReverse", "alternate-reverse")],
   property "animationDuration" "animation-duration",
   property "animationFillMode" "animation-fill-mode"
    |>.withOptions
      [("none", "none"), ("forwards", "forwards"), ("backwards", "backwards"), ("both", "both")],
   property "animationIterCount" "animation-iteration-count"
    |>.withOptions [("infinite", "infinite"), ("once", "1"), ("twice", "2"), ("thrice", "3")],
   property "animationName" "animation-name",
   property "animationPlayState" "animation-play-state"
    |>.withOptions [("running", "running"), ("paused", "paused")],
   property "animationTimingFunction" "animation-timing-function"
    |>.withOptions
      [("linear", "linear"), ("ease", "ease"), ("easeIn", "ease-in"), ("easeOut", "ease-out"),
       ("easeInOut", "ease-in-out"), ("stepStart", "step-start"), ("stepEnd", "step-end")],
   property "keyframes" "@keyframes",
   property "transition" "transition",
   property "transitionDelay" "transition-delay",
   property "transitionDuration" "transition-duration",
   property "transitionProperty" "transition-property",
   property "transitionTimingFunction" "transition-timing-function",
   property "transform" "transform",
   property "transformOrigin" "transform-origin",
   property "transformStyle" "transform-style",
   property "perspective" "perspective",
   property "perspectiveOrigin" "perspective-origin",
   property "backfaceVisibility" "backface-visibility"]

end StyleProps.Alias.Builtin
