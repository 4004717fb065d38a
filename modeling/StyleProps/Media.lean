import StyleProps.Table
import StyleProps.Declaration.Basic

/-!
# Media aliases

Short names of media queries. A statement with a media alias is put into the scope that the text of
the query opens. The built-in breakpoints are least widths; further aliases ask for a color scheme,
for print and for motion.
-/

namespace StyleProps

/-- Media aliases and the texts of their queries. -/
abbrev MediaTable := Table String

namespace MediaTable

/-- The breakpoints, with the least width of each in pixels. -/
def breakpoints : List (String × Nat) :=
  [("sm", 640), ("md", 768), ("lg", 1024), ("xl", 1280), ("2xl", 1536)]

/-- The query for a least width in pixels. -/
def minWidth (pixels : Nat) : String :=
  "@media (min-width: " ++ toString pixels ++ "px)"

/-- The built-in media aliases. -/
def builtin : MediaTable :=
  Table.ofList <|
    breakpoints.map (fun (name, pixels) => (name, minWidth pixels)) ++
      [("dark", "@media (prefers-color-scheme: dark)"),
       ("light", "@media (prefers-color-scheme: light)"),
       ("print", "@media print"),
       ("motion", "@media (prefers-reduced-motion: no-preference)")]

/-- Puts a rule under the query of an alias, or fails if the alias is unknown. -/
def wrap? (table : MediaTable) (name : String) (rule : Declarations) : Option Declarations :=
  (table.get? name).map rule.wrap

end MediaTable

end StyleProps
