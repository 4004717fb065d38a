import StyleProps.Config
import StyleProps.Declaration.Merge
import StyleProps.Diagnostic
import StyleProps.Selector.Nest
import StyleProps.Statement.Split

/-!
# Resolving style props

Every statement of a style prop gives a rule: declarations, wrapped in the scopes of the statement's
selector tokens and put under the query of its media alias. Rules are merged prop by prop. The props
that are aliases come first, and then those that are selectors, each group in its own order; a prop
can be both. Every other prop is passed over.

`resolve` resolves all props and `resolveProp?` a single one. A `Resolution` holds the declarations
and what was found wrong on the way.
-/

namespace StyleProps

/-- Declarations, and the problems that were found on the way, in order. -/
structure Resolution where
  declarations : Declarations
  diagnostics : List Diagnostic

namespace Resolution

/-- The resolution of nothing. -/
def empty : Resolution := ⟨[], []⟩

/-- One resolution after another: declarations are merged, and diagnostics follow each other. -/
def followedBy (first second : Resolution) : Resolution :=
  ⟨first.declarations.merge second.declarations, first.diagnostics ++ second.diagnostics⟩

/-- Resolutions one after another. -/
def all (parts : List Resolution) : Resolution :=
  parts.foldl followedBy empty

/-- A prop that is dropped for a problem. -/
def dropped (prop : String) (problem : Problem) : Resolution :=
  ⟨[], [⟨prop, problem⟩]⟩

/-- Whether nothing was found wrong. -/
def isClean (resolution : Resolution) : Bool :=
  resolution.diagnostics.isEmpty

end Resolution

/-- What props are resolved with: the tables, and whether every part that is passed over is
reported. -/
structure Resolver where
  config : Config
  strict : Bool

namespace Resolver

/-- Diagnostics for problems of a prop that are reported in strict mode only. -/
def strictly (resolver : Resolver) (prop : String) (problems : List Problem) : List Diagnostic :=
  if resolver.strict then problems.map (⟨prop, ·⟩) else []

/-- Puts a rule under the query of a media alias. A rule under an unknown alias is dropped. -/
def underMedia (resolver : Resolver) (prop : String) (media : Option String)
    (rule : Declarations) : Resolution :=
  match media with
  | none => ⟨rule, []⟩
  | some name =>
      match resolver.config.media.wrap? name rule with
      | some wrapped => ⟨wrapped, []⟩
      | none => .dropped prop (.unknownMedia name)

/-- Wraps a rule in the scopes of selector tokens, further in an outer scope if there is one, and
puts it under the query of a media alias. -/
def place (resolver : Resolver) (prop : String) (statement : Statement) (outer : Option String)
    (rule : Declarations) : Resolution :=
  let (nested, unknown) := nest resolver.config.tokens rule statement.selectors
  let wrapped := match outer with
    | some key => nested.wrap key
    | none => nested
  let placed := resolver.underMedia prop statement.media wrapped
  ⟨placed.declarations,
    resolver.strictly prop (unknown.map .unknownSelector) ++ placed.diagnostics⟩

/-- The style text of an alias, or what is wrong with its value. -/
def aliasText : PropValue → Except Problem String
  | .text content => if content = "" then .error .emptyValue else .ok content
  | .number x => .ok (Decimal.plain x)
  | .null => .error .emptyValue
  | value => .error (.unsupportedValue value.kind)

/-- The rule of a statement of an alias. -/
def aliasStatement (resolver : Resolver) (entry : Alias) (prop : String) (statement : Statement) :
    Resolution :=
  resolver.place prop statement none (entry.emit statement.value)

/-- A prop that is an alias. -/
def aliasProp (resolver : Resolver) (entry : Alias) (prop : String) (value : PropValue) :
    Resolution :=
  match aliasText value with
  | .error problem => .dropped prop problem
  | .ok text =>
      .all ((Statement.split text).map fun part =>
        resolver.aliasStatement entry prop (Statement.parse part))

/-- The parameter and the style text of a selector, or what is wrong with its value. -/
def selectorText (value : PropValue) : Except Problem (Option String × String) :=
  let nonEmpty (param : Option String) (content : String) :=
    if content = "" then .error .emptyValue else .ok (param, content)
  match value with
  | .text content => nonEmpty none content
  | .pair param content => nonEmpty (some param) content
  | .null => .error .emptyValue
  | value => .error (.unsupportedValue value.kind)

/-- The declarations of an item of a statement of a selector. An item with an unknown alias is
passed over. -/
def item (resolver : Resolver) (prop : String) (name raw : String) : Resolution :=
  match resolver.config.aliases.emit? name raw with
  | some rule => ⟨rule, []⟩
  | none => ⟨[], resolver.strictly prop [.unknownAlias name]⟩

/-- The rule of a statement of a selector that opens the given scope. -/
def selectorStatement (resolver : Resolver) (scope prop : String) (statement : Statement) :
    Resolution :=
  let items := Resolution.all <|
    (Statement.splitItems statement.value).map fun (name, raw) => resolver.item prop name raw
  let rule := resolver.place prop statement (some scope) items.declarations
  ⟨rule.declarations, items.diagnostics ++ rule.diagnostics⟩

/-- A prop that is a selector. -/
def selectorProp (resolver : Resolver) (kind : SelectorKind) (prop : String) (value : PropValue) :
    Resolution :=
  match selectorText value with
  | .error problem => .dropped prop problem
  | .ok (param, text) =>
      match kind.key? param with
      | none => .dropped prop .missingParameter
      | some scope =>
          .all ((Statement.split text).map fun part =>
            resolver.selectorStatement scope prop (Statement.parseScoped part))

/-- What a prop contributes as an alias, if it is one. -/
def asAlias (resolver : Resolver) (prop : String) (value : PropValue) : Resolution :=
  match resolver.config.aliases.get? prop with
  | some entry => resolver.aliasProp entry prop value
  | none => .empty

/-- What a prop contributes as a selector, if it is one. -/
def asSelector (resolver : Resolver) (prop : String) (value : PropValue) : Resolution :=
  match resolver.config.scopes.get? prop with
  | some kind => resolver.selectorProp kind prop value
  | none => .empty

/-- Whether a name is that of a style prop. -/
def isStyleProp (resolver : Resolver) (prop : String) : Bool :=
  resolver.config.aliases.contains prop || resolver.config.scopes.contains prop

/-- Resolves all style props among props. -/
def resolve (resolver : Resolver) (props : Props) : Resolution :=
  let aliases := Resolution.all (props.entries.map fun (prop, value) => resolver.asAlias prop value)
  let selectors :=
    Resolution.all (props.entries.map fun (prop, value) => resolver.asSelector prop value)
  aliases.followedBy selectors

/-- Resolves a single prop: `none` if it is no style prop, or if nothing but problems came of it. -/
def resolveProp? (resolver : Resolver) (prop : String) (value : PropValue) : Option Declarations :=
  let resolution := Resolution.all [resolver.asAlias prop value, resolver.asSelector prop value]
  if !resolver.isStyleProp prop then none
  else if resolution.declarations.isEmpty && !resolution.isClean then none
  else some resolution.declarations

end Resolver

end StyleProps
