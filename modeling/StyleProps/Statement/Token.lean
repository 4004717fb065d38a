/-!
# Selector tokens

The marks in a statement that scope it to a selector: a pseudo class or element such as `:hover`, a
pseudo class with a parameter such as `:nthChild(2n)`, and a combinator with its target such as
`&>span`. `SelectorToken.text` writes a token.
-/

namespace StyleProps

/-- How the current element is joined to a target. -/
inductive Combinator where
  /-- `& > target` -/
  | child
  /-- `& ~ target` -/
  | generalSibling
  /-- `& + target` -/
  | adjacentSibling
  /-- `& target` -/
  | descendant
deriving DecidableEq, Repr, Inhabited

namespace Combinator

/-- The combinator that a character stands for. -/
def ofSymbol? : Char → Option Combinator
  | '>' => some .child
  | '~' => some .generalSibling
  | '+' => some .adjacentSibling
  | ' ' => some .descendant
  | _ => none

/-- The selector that joins the current element to a target. -/
def selector : Combinator → String → String
  | .child, target => "& > " ++ target
  | .generalSibling, target => "& ~ " ++ target
  | .adjacentSibling, target => "& + " ++ target
  | .descendant, target => "& " ++ target

end Combinator

/-- A mark that scopes a statement to a selector. -/
inductive SelectorToken where
  /-- A pseudo class or element: `:hover`, `::before`. -/
  | named (name : String)
  /-- A pseudo class with a parameter: `:nthChild(2)`. -/
  | functional (name param : String)
  /-- A combinator with its target: `&>span`, `& li`. -/
  | combinator (joint : Combinator) (target : String)
deriving DecidableEq, Repr, Inhabited

/-- The text of a selector token. -/
def SelectorToken.text : SelectorToken → String
  | .named name => ":" ++ name
  | .functional name param => ":" ++ name ++ "(" ++ param ++ ")"
  | .combinator joint target => joint.selector target

end StyleProps
