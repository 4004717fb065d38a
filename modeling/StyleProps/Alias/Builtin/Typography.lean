import StyleProps.Alias.Builtin.Shared

/-!
# Typography aliases

Aliases for fonts, text, lists and generated content.
-/

namespace StyleProps.Alias.Builtin

/-- The alignments of text. -/
def textAlignments : List (String × String) :=
  [("left", "left"), ("right", "right"), ("center", "center"), ("justify", "justify")]

/-- The lines that decorate text. -/
def decorationLines : List (String × String) :=
  [("none", "none"), ("underline", "underline"), ("overline", "overline"),
   ("lineThrough", "line-through")]

/-- The font sizes. -/
def fontSizes : List (String × String) :=
  [("xs", "0.625rem"), ("sm", "0.75rem"), ("base", "1rem"), ("lg", "1.125rem"), ("xl", "1.25rem"),
   ("2xl", "1.5rem"), ("3xl", "1.875rem"), ("4xl", "2.25rem"), ("5xl", "3rem"),
   ("6xl", "3.75rem"), ("7xl", "4.5rem"), ("8xl", "6rem"), ("9xl", "8rem")]

/-- The line heights. -/
def lineHeights : List (String × String) :=
  [("xs", "1rem"), ("sm", "1.25rem"), ("base", "1.5rem"), ("lg", "1.75rem"), ("xl", "1.75"),
   ("2xl", "2rem"), ("3xl", "2.25rem"), ("4xl", "2.5rem"), ("5xl", "1"), ("6xl", "1"),
   ("7xl", "1"), ("8xl", "1"), ("9xl", "1")]

/-- The font families. -/
def fontFamilies : List (String × String) :=
  [("sans",
    "ui-sans-serif, system-ui, -apple-system, BlinkMacSystemFont, \"Segoe UI\", Roboto, " ++
      "\"Helvetica Neue\", Arial, \"Noto Sans\", sans-serif"),
   ("serif", "ui-serif, Georgia, Cambria, \"Times New Roman\", Times, serif"),
   ("mono",
    "ui-monospace, SFMono-Regular, Menlo, Monaco, Consolas, \"Liberation Mono\", " ++
      "\"Courier New\", monospace")]

/-- The font weights. -/
def fontWeights : List (String × String) :=
  [("thin", "100"), ("extraLight", "200"), ("light", "300"), ("normal", "400"), ("medium", "500"),
   ("semiBold", "600"), ("bold", "700"), ("extraBold", "800"), ("black", "900")]

/-- The colors of an emphasis. -/
def emphasisColors : List (String × String) :=
  [("current", "currentColor"), ("transparent", "transparent")]

/-- A thickness by itself, further keywords, and one to ten pixels. -/
def pixelValues (keywords : List (String × String)) : List (String × String) :=
  [("auto", "auto")] ++ keywords ++
    (List.range' 1 10).map fun n => (toString n, toString n ++ "px")

/-- Aliases for fonts, text, lists and generated content. -/
def typography : List Alias :=
  [(property "family" "font-family").withOptions fontFamilies,
   (property "fs" "font-size").withOptions fontSizes,
   property "fontSmoothing" "-webkit-font-smoothing"
    |>.withOptions [("antialiased", "antialiased"), ("subpixel", "auto")],
   (property "fontStyle" "font-style").withOptions [("normal", "normal"), ("italic", "italic")],
   (property "fw" "font-weight").withOptions fontWeights,
   property "fontVariant" "font-variant",
   property "fontVariantAlternates" "font-variant-alternates",
   property "fontVariantCaps" "font-variant-caps",
   property "fontVariantEastAsian" "font-variant-east-asian",
   property "fontVariantLigatures" "font-variant-ligatures",
   property "fontVariantNumeric" "font-variant-numeric",
   property "fontVariantPosition" "font-variant-position",
   property "fontFeatureSettings" "font-feature-settings",
   property "fontKerning" "font-kerning",
   property "fontLanguageOverride" "font-language-override",
   (property "lh" "line-height").withOptions lineHeights,
   spaced "letterSpacing" "letter-spacing",
   spaced "wordSpacing" "word-spacing",
   property "listStyle" "list-style",
   property "listStyleType" "list-style-type"
    |>.withOptions [("none", "none"), ("disc", "disc"), ("decimal", "decimal")],
   property "listStylePosition" "list-style-position"
    |>.withOptions [("inside", "inside"), ("outside", "outside")],
   (property "listStyleImage" "list-style-image").withOptions [("none", "none")],
   (property "textAlign" "text-align").withOptions textAlignments,
   (property "textAlignLast" "text-align-last").withOptions textAlignments,
   colored "color" "color",
   (property "textDecoration" "text-decoration").withOptions decorationLines,
   property "textDecorationColor" "text-decoration-color"
    |>.withOptions emphasisColors
    |>.withTable Palette.color,
   property "textDecorationLine" "text-decoration-line"
    |>.withOptions decorationLines
    |>.withOptions [("blink", "blink")],
   property "textDecorationStyle" "text-decoration-style"
    |>.withOptions
      [("solid", "solid"), ("double", "double"), ("dotted", "dotted"), ("dashed", "dashed"),
       ("wavy", "wavy")],
   property "textDecorationThickness" "text-decoration-thickness"
    |>.withOptions (pixelValues [("fromFont", "from-font")]),
   (property "textUnderlineOffset" "text-underline-offset").withOptions (pixelValues []),
   property "textTransform" "text-transform"
    |>.withOptions
      [("none", "none"), ("capitalize", "capitalize"), ("uppercase", "uppercase"),
       ("lowercase", "lowercase")],
   property "textOverflow" "text-overflow"
    |>.withOptions [("clip", "clip"), ("ellipsis", "ellipsis")],
   property "textEmphasis" "text-emphasis",
   property "textEmphasisColor" "text-emphasis-color"
    |>.withOptions emphasisColors
    |>.withTable Palette.color,
   property "textEmphasisPosition" "text-emphasis-position"
    |>.withOptions [("over", "over"), ("under", "under"), ("right", "right"), ("left", "left")],
   property "textEmphasisStyle" "text-emphasis-style"
    |>.withOptions
      [("filled", "filled"), ("open", "open"), ("dot", "dot"), ("circle", "circle"),
       ("doubleCircle", "double-circle"), ("triangle", "triangle"),
       ("filledSesame", "filled-sesame"), ("openSesame", "open-sesame")],
   property "textJustify" "text-justify"
    |>.withOptions
      [("auto", "auto"), ("interWord", "inter-word"), ("interCharacter", "inter-character"),
       ("distribute", "distribute"), ("none", "none")],
   property "textOrientation" "text-orientation"
    |>.withOptions
      [("mixed", "mixed"), ("upright", "upright"), ("sideways", "sideways"),
       ("sidewaysRight", "sideways-right"), ("glyph", "glyph-orientation-vertical")],
   property "textShadow" "text-shadow",
   property "textUnderlinePosition" "text-underline-position"
    |>.withOptions [("auto", "auto"), ("under", "under"), ("left", "left"), ("right", "right")],
   property "textWrap" "text-wrap"
    |>.withOptions
      [("wrap", "wrap"), ("nowrap", "nowrap"), ("balance", "balance"), ("pretty", "pretty")],
   spaced "textIndent" "text-indent",
   property "verticalAlign" "vertical-align"
    |>.withOptions
      [("baseline", "baseline"), ("top", "top"), ("middle", "middle"), ("bottom", "bottom"),
       ("textTop", "text-top"), ("textBottom", "text-bottom"), ("super", "super"), ("sub", "sub")],
   property "whiteSpace" "white-space"
    |>.withOptions
      [("normal", "normal"), ("nowrap", "nowrap"), ("pre", "pre"), ("preLine", "pre-line"),
       ("preWrap", "pre-wrap"), ("breakSpaces", "break-spaces")],
   property "wordBreak" "word-break"
    |>.withOptions [("normal", "normal"), ("breakAll", "break-all"), ("keepAll", "keep-all")],
   property "hyphens" "hyphens"
    |>.withOptions [("none", "none"), ("manual", "manual"), ("auto", "auto")],
   quoted "content" "content" none,
   (quoted "contentBefore" "content" (some "&::before")).withOptions [("none", "none")],
   (quoted "contentAfter" "content" (some "&::after")).withOptions [("none", "none")],
   property "wordWrap" "word-wrap"
    |>.withOptions [("normal", "normal"), ("breakWord", "break-word")],
   property "writingMode" "writing-mode"
    |>.withOptions
      [("horizontal", "horizontal-tb"), ("vertical", "vertical-rl"),
       ("verticalLr", "vertical-lr")]]

end StyleProps.Alias.Builtin
