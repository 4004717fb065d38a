import StyleProps.Props
import StyleProps.Statement.Token

/-!
# Diagnostics

What can be wrong with a style prop, and the text that says so. Resolving never fails: a part of a
prop that cannot be used is dropped, and a diagnostic tells why.
-/

namespace StyleProps

/-- What is wrong with a prop. -/
inductive Problem where
  /-- The prop has no content. -/
  | emptyValue
  /-- The value has a shape that the prop cannot use. -/
  | unsupportedValue (kind : PropKind)
  /-- A statement names an unknown media alias. -/
  | unknownMedia (name : String)
  /-- The selector needs a parameter. -/
  | missingParameter
  /-- A selector token opens no scope. -/
  | unknownSelector (token : SelectorToken)
  /-- An item names an unknown alias. -/
  | unknownAlias (name : String)
deriving DecidableEq, Repr

/-- Whether a problem is reported in strict mode only. -/
def Problem.isStrictOnly : Problem → Bool
  | .unknownSelector _ => true
  | .unknownAlias _ => true
  | _ => false

/-- A problem and the prop that has it. -/
structure Diagnostic where
  prop : String
  problem : Problem
deriving DecidableEq, Repr

/-- The text of a diagnostic. -/
def Diagnostic.text (diagnostic : Diagnostic) : String :=
  "the prop " ++ diagnostic.prop ++
    match diagnostic.problem with
    | .emptyValue => " has no content"
    | .unsupportedValue kind => " cannot take a " ++ kind.name ++ " value"
    | .unknownMedia name => " uses unknown media alias '@" ++ name ++ "'"
    | .missingParameter => " needs a [parameter, value] pair"
    | .unknownSelector token => " uses unknown selector '" ++ token.text ++ "'"
    | .unknownAlias name => " uses unknown alias '" ++ name ++ "'"

end StyleProps
