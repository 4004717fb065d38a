import StyleProps.Statement.Token
import StyleProps.Table

/-!
# Selector names

What a selector name stands for, and the key of the scope that it opens. Two of the four kinds need
a parameter, without which they open no scope; the other two ignore one.
-/

namespace StyleProps

/-- What a selector name stands for. -/
inductive SelectorKind where
  /-- The pseudo class `&:css`. -/
  | pseudoClass (css : String)
  /-- The pseudo element `&::css`. -/
  | pseudoElement (css : String)
  /-- The pseudo class `&:css(param)`. -/
  | functional (css : String)
  /-- A combinator whose target is the parameter. -/
  | combinator (joint : Combinator)
deriving DecidableEq, Repr, Inhabited

/-- The key of the scope that a selector opens, or `none` if it lacks a parameter that it needs. An
empty parameter counts as none. -/
def SelectorKind.key? (param : Option String) : SelectorKind → Option String
  | .pseudoClass css => some ("&:" ++ css)
  | .pseudoElement css => some ("&::" ++ css)
  | .functional css => (param.filter (· ≠ "")).map fun p => "&:" ++ css ++ "(" ++ p ++ ")"
  | .combinator joint => (param.filter (· ≠ "")).map joint.selector

/-- Selector names and what they stand for. -/
abbrev SelectorTable := Table SelectorKind

/-- The key of the scope that a name opens, if the name is known and lacks no parameter. -/
def SelectorTable.key? (table : SelectorTable) (name : String) (param : Option String) :
    Option String :=
  (table.get? name).bind (·.key? param)

/-- The key of the scope that a token opens. A combinator carries its own meaning. -/
def SelectorToken.key? (table : SelectorTable) : SelectorToken → Option String
  | .named name => table.key? name none
  | .functional name param => table.key? name (some param)
  | .combinator joint target => some (joint.selector target)

end StyleProps
