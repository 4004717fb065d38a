import StyleProps.Selector.Basic

/-!
# Built-in selectors

The pseudo elements and pseudo classes that are known as tokens of statements, and the combinators
that are known as prop names besides them.
-/

namespace StyleProps.SelectorTable

/-- The names of pseudo elements. -/
def pseudoElements : List (String × String) :=
  [("before", "before"),
   ("after", "after"),
   ("firstLetter", "first-letter"),
   ("firstLine", "first-line"),
   ("selection", "selection"),
   ("marker", "marker"),
   ("placeholder", "placeholder"),
   ("backdrop", "backdrop")]

/-- The names of pseudo classes without parameter. -/
def pseudoClasses : List (String × String) :=
  [("hover", "hover"),
   ("focus", "focus"),
   ("active", "active"),
   ("lastChild", "last-child"),
   ("firstChild", "first-child"),
   ("lastOfType", "last-of-type"),
   ("firstOfType", "first-of-type"),
   ("empty", "empty"),
   ("checked", "checked"),
   ("disabled", "disabled"),
   ("enabled", "enabled"),
   ("visited", "visited"),
   ("link", "link"),
   ("target", "target"),
   ("focusWithin", "focus-within"),
   ("focusVisible", "focus-visible"),
   ("onlyChild", "only-child"),
   ("onlyOfType", "only-of-type"),
   ("readOnly", "read-only"),
   ("readWrite", "read-write"),
   ("placeholderShown", "placeholder-shown")]

/-- The names of pseudo classes with a parameter. -/
def functionalClasses : List (String × String) :=
  [("nthChild", "nth-child"),
   ("nthOfType", "nth-of-type"),
   ("not", "not")]

/-- The names of combinators. -/
def combinators : List (String × Combinator) :=
  [("descendant", .descendant),
   ("directChild", .child),
   ("adjacentSibling", .adjacentSibling),
   ("generalSibling", .generalSibling)]

/-- The entries of the table of tokens. -/
def tokenEntries : List (String × SelectorKind) :=
  pseudoElements.map (fun (name, css) => (name, .pseudoElement css)) ++
    pseudoClasses.map (fun (name, css) => (name, .pseudoClass css)) ++
    functionalClasses.map (fun (name, css) => (name, .functional css))

/-- The selectors known as tokens of statements. -/
def builtinTokens : SelectorTable :=
  Table.ofList tokenEntries

/-- The selectors known as prop names: those known as tokens, and the combinators. -/
def builtinProps : SelectorTable :=
  builtinTokens.insertAll (combinators.map fun (name, joint) => (name, .combinator joint))

end StyleProps.SelectorTable
