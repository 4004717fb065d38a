import StyleProps.Selector.Basic
import StyleProps.Declaration.Basic

/-!
# Nesting in scopes

A rule is wrapped in one scope for each selector token, the first token outermost. Tokens that open
no scope are passed over and reported, in the order in which they are met from the inside out.
-/

namespace StyleProps

/-- Wraps what was wrapped so far in the scope of one more token, or reports the token. -/
def nestToken (table : SelectorTable) (token : SelectorToken)
    (inner : Declarations × List SelectorToken) : Declarations × List SelectorToken :=
  match token.key? table with
  | some key => (inner.1.wrap key, inner.2)
  | none => (inner.1, inner.2 ++ [token])

/-- Wraps a rule in the scopes of tokens, and lists the tokens that open none. -/
def nest (table : SelectorTable) (rule : Declarations) (tokens : List SelectorToken) :
    Declarations × List SelectorToken :=
  tokens.foldr (nestToken table) (rule, [])

variable {table : SelectorTable} {token : SelectorToken} {key : String}

/-- A token that opens a scope wraps what the tokens after it wrapped. -/
theorem nest_cons_of_some (h : token.key? table = some key) (rule : Declarations)
    (rest : List SelectorToken) :
    nest table rule (token :: rest) =
      ((nest table rule rest).1.wrap key, (nest table rule rest).2) := by
  show nestToken table token (nest table rule rest) = _
  rw [nestToken, h]

/-- A token that opens none is reported after the tokens behind it. -/
theorem nest_cons_of_none (h : token.key? table = none) (rule : Declarations)
    (rest : List SelectorToken) :
    nest table rule (token :: rest) =
      ((nest table rule rest).1, (nest table rule rest).2 ++ [token]) := by
  show nestToken table token (nest table rule rest) = _
  rw [nestToken, h]

/-- What holds of a rule and is kept by every scope that a token opens holds of the rule in the
scopes of tokens. -/
theorem nest_induction {motive : Declarations → Prop} {rule : Declarations} (hrule : motive rule)
    (hwrap : ∀ (token : SelectorToken) (key : String) (inner : Declarations),
      token.key? table = some key → motive inner → motive (inner.wrap key))
    (tokens : List SelectorToken) : motive (nest table rule tokens).1 := by
  induction tokens with
  | nil => exact hrule
  | cons token rest ih =>
      cases hkey : token.key? table with
      | none =>
          rw [nest_cons_of_none hkey]
          exact ih
      | some key =>
          rw [nest_cons_of_some hkey]
          exact hwrap token key _ hkey ih

end StyleProps
