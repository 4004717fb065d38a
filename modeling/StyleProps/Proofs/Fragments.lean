import StyleProps.Proofs.Separated
import StyleProps.Resolution

/-!
# Fragments of statements

The rules that the statements of all style props give, as one flat list in the order in which they
take effect: first the statements of props that are aliases, then those of props that are selectors.
A statement with an unknown media alias gives none, and neither does a prop with an unusable value.
In a configuration whose properties and scopes are told apart, every fragment has the shape of
`Declarations.Separated`.
-/

namespace StyleProps

/-- The properties that an emitter can store texts under. -/
def Emitter.propertyNames : Emitter → List String
  | .properties names => names
  | .quoted property _ => [property]
  | .flex _ _ => ["display", "justifyContent", "alignItems", "flexDirection"]

/-- The scope that an emitter opens by itself. -/
def Emitter.scope? : Emitter → Option String
  | .quoted _ scope => scope
  | _ => none

namespace Config

/-- Whether a key can open a scope: it starts with an ampersand, is a registered media query, or is
the scope of a quoted alias. -/
def IsScopeKey (config : Config) (key : String) : Prop :=
  (∃ rest, key = "&" ++ rest) ∨
    (∃ name, config.media.get? name = some key) ∨
    ∃ name entry, config.aliases.get? name = some entry ∧ entry.emitter.scope? = some key

/-- Whether no property of an alias is a key that can open a scope. -/
def ScopeSeparated (config : Config) : Prop :=
  ∀ name entry, config.aliases.get? name = some entry →
    ∀ property ∈ entry.emitter.propertyNames, ¬ config.IsScopeKey property

/-- A predicate on keys that holds of all scopes of a configuration and of none of its
properties. -/
structure SortsKeys (config : Config) (scope : String → Prop) : Prop where
  /-- Keys that start with an ampersand are scopes. -/
  ampersand : ∀ rest, scope ("&" ++ rest)
  /-- Media queries are scopes. -/
  query : ∀ name query, config.media.get? name = some query → scope query
  /-- The scopes of quoted aliases are scopes. -/
  quoted : ∀ name entry key, config.aliases.get? name = some entry →
    entry.emitter.scope? = some key → scope key
  /-- Properties are no scopes. -/
  property : ∀ name entry, config.aliases.get? name = some entry →
    ∀ property ∈ entry.emitter.propertyNames, ¬ scope property

/-- Where properties and scopes are separate, `IsScopeKey` sorts the keys. -/
theorem ScopeSeparated.sortsKeys {config : Config} (h : config.ScopeSeparated) :
    config.SortsKeys config.IsScopeKey where
  ampersand rest := Or.inl ⟨rest, rfl⟩
  query name _ hquery := Or.inr (Or.inl ⟨name, hquery⟩)
  quoted name entry _ hentry hscope := Or.inr (Or.inr ⟨name, entry, hentry, hscope⟩)
  property := h

/-! ## The flat list -/

/-- A rule under the query of a media alias, or `none` if the alias is unknown. -/
def underQuery? (config : Config) (media : Option String) (rule : Declarations) :
    Option Declarations :=
  match media with
  | none => some rule
  | some name => config.media.wrap? name rule

/-- The fragment of a statement of an alias: what the alias emits, in the scopes of the selector
tokens, under the media query. -/
def aliasFragment? (config : Config) (entry : Alias) (statement : Statement) :
    Option Declarations :=
  config.underQuery? statement.media
    (nest config.tokens (entry.emit statement.value) statement.selectors).1

/-- What the items of a statement of a selector emit, in order. -/
def itemRules (config : Config) (statement : Statement) : List Declarations :=
  (Statement.splitItems statement.value).filterMap fun (name, raw) =>
    config.aliases.emit? name raw

/-- A rule in the scopes of the selector tokens of a statement, in the scope of the selector, under
the media query. -/
def inScope? (config : Config) (scope : String) (statement : Statement) (rule : Declarations) :
    Option Declarations :=
  config.underQuery? statement.media
    ((nest config.tokens rule statement.selectors).1.wrap scope)

/-- The fragment of a statement of a selector that opens the given scope: its items merged into one
rule, put in place. -/
def selectorFragment? (config : Config) (scope : String) (statement : Statement) :
    Option Declarations :=
  config.inScope? scope statement (Declarations.mergeAll [] (config.itemRules statement))

/-- The fragments of a prop that is an alias. -/
def aliasFragments (config : Config) (entry : Alias) (value : PropValue) : List Declarations :=
  match Resolver.aliasText value with
  | .error _ => []
  | .ok text =>
      (Statement.split text).filterMap fun part =>
        config.aliasFragment? entry (Statement.parse part)

/-- The fragments of a prop that is a selector. -/
def selectorFragments (config : Config) (kind : SelectorKind) (value : PropValue) :
    List Declarations :=
  match Resolver.selectorText value with
  | .error _ => []
  | .ok (param, text) =>
      match kind.key? param with
      | none => []
      | some scope =>
          (Statement.split text).filterMap fun part =>
            config.selectorFragment? scope (Statement.parseScoped part)

/-- The fragments of a prop as an alias; none if it is no alias. -/
def fragmentsAsAlias (config : Config) (prop : String) (value : PropValue) : List Declarations :=
  match config.aliases.get? prop with
  | some entry => config.aliasFragments entry value
  | none => []

/-- The fragments of a prop as a selector; none if it is no selector. -/
def fragmentsAsSelector (config : Config) (prop : String) (value : PropValue) :
    List Declarations :=
  match config.scopes.get? prop with
  | some kind => config.selectorFragments kind value
  | none => []

/-- The fragments of all props, in the order in which they take effect. -/
def fragments (config : Config) (props : Props) : List Declarations :=
  props.entries.flatMap (fun (prop, value) => config.fragmentsAsAlias prop value) ++
    props.entries.flatMap (fun (prop, value) => config.fragmentsAsSelector prop value)

/-- A fragment of a prop as an alias is that of a statement, for the alias that is registered under
the name of the prop. -/
theorem exists_of_mem_fragmentsAsAlias {config : Config} {prop : String} {value : PropValue}
    {fragment : Declarations} (h : fragment ∈ config.fragmentsAsAlias prop value) :
    ∃ entry statement, config.aliases.get? prop = some entry ∧
      config.aliasFragment? entry statement = some fragment := by
  unfold fragmentsAsAlias at h
  cases hentry : config.aliases.get? prop with
  | none => simp [hentry] at h
  | some entry =>
      simp only [hentry, aliasFragments] at h
      cases htext : Resolver.aliasText value with
      | error problem => simp [htext] at h
      | ok content =>
          simp only [htext] at h
          obtain ⟨part, _, hfragment⟩ := List.mem_filterMap.mp h
          exact ⟨entry, Statement.parse part, rfl, hfragment⟩

/-- A fragment of a prop as a selector is that of a statement, in the scope that the selector
opens. -/
theorem exists_of_mem_fragmentsAsSelector {config : Config} {prop : String} {value : PropValue}
    {fragment : Declarations} (h : fragment ∈ config.fragmentsAsSelector prop value) :
    ∃ (kind : SelectorKind) (param : Option String) (scope : String) (statement : Statement),
      kind.key? param = some scope ∧
        config.selectorFragment? scope statement = some fragment := by
  unfold fragmentsAsSelector at h
  cases hkind : config.scopes.get? prop with
  | none => simp [hkind] at h
  | some kind =>
      simp only [hkind, selectorFragments] at h
      cases htext : Resolver.selectorText value with
      | error problem => simp [htext] at h
      | ok content =>
          obtain ⟨param, content⟩ := content
          simp only [htext] at h
          cases hkey : kind.key? param with
          | none => simp [hkey] at h
          | some scope =>
              simp only [hkey] at h
              obtain ⟨part, _, hfragment⟩ := List.mem_filterMap.mp h
              exact ⟨kind, param, scope, Statement.parseScoped part, hkey, hfragment⟩

end Config

/-! ## The shape of fragments -/

/-- The key of a combinator starts with an ampersand. -/
theorem Combinator.selector_eq_ampersand (joint : Combinator) (target : String) :
    ∃ rest, joint.selector target = "&" ++ rest := by
  cases joint
  · exact ⟨" > " ++ target, by rw [← String.append_assoc]; rfl⟩
  · exact ⟨" ~ " ++ target, by rw [← String.append_assoc]; rfl⟩
  · exact ⟨" + " ++ target, by rw [← String.append_assoc]; rfl⟩
  · exact ⟨" " ++ target, by rw [← String.append_assoc]; rfl⟩

/-- The key that a selector opens starts with an ampersand. -/
theorem SelectorKind.key?_eq_ampersand {kind : SelectorKind} {param : Option String}
    {key : String} (h : kind.key? param = some key) : ∃ rest, key = "&" ++ rest := by
  cases kind with
  | pseudoClass css =>
      obtain rfl := Option.some.inj h
      exact ⟨":" ++ css, by rw [← String.append_assoc]; rfl⟩
  | pseudoElement css =>
      obtain rfl := Option.some.inj h
      exact ⟨"::" ++ css, by rw [← String.append_assoc]; rfl⟩
  | functional css =>
      obtain ⟨p, _, rfl⟩ := Option.map_eq_some_iff.mp h
      exact ⟨":" ++ css ++ "(" ++ p ++ ")", by simp only [← String.append_assoc]; rfl⟩
  | combinator joint =>
      obtain ⟨p, _, rfl⟩ := Option.map_eq_some_iff.mp h
      exact joint.selector_eq_ampersand p

/-- The key that a token opens starts with an ampersand. -/
theorem SelectorToken.key?_eq_ampersand {table : SelectorTable} {token : SelectorToken}
    {key : String} (h : token.key? table = some key) : ∃ rest, key = "&" ++ rest := by
  cases token with
  | named name =>
      obtain ⟨kind, _, hkey⟩ := Option.bind_eq_some_iff.mp h
      exact SelectorKind.key?_eq_ampersand hkey
  | functional name param =>
      obtain ⟨kind, _, hkey⟩ := Option.bind_eq_some_iff.mp h
      exact SelectorKind.key?_eq_ampersand hkey
  | combinator joint target =>
      obtain rfl := Option.some.inj h
      exact joint.selector_eq_ampersand target

/-- The texts of a flexible box stand under its four properties. -/
theorem Emitter.fst_mem_of_mem_flexTexts {direction : Option String} {directionSlot : Bool}
    {input : EmitInput} {pair : String × String}
    (h : pair ∈ Emitter.flexTexts direction directionSlot input) :
    pair.1 ∈ (Emitter.flex direction directionSlot).propertyNames := by
  have hslot : ∀ key symbols part, pair ∈ Emitter.slotEntry key symbols part → pair.1 = key := by
    intro key symbols part hpair
    cases part with
    | none => simp [Emitter.slotEntry] at hpair
    | some value =>
        simp only [Emitter.slotEntry, Option.map_some, Option.toList_some,
          List.mem_singleton] at hpair
        rw [hpair]
  simp only [Emitter.flexTexts, List.mem_append, or_assoc] at h
  rcases h with hdisplay | hdirection | hjustify | halign | hthird
  · simp only [List.mem_singleton] at hdisplay
    simp [hdisplay, Emitter.propertyNames]
  · cases direction with
    | none => simp at hdirection
    | some value =>
        simp only [Option.map_some, Option.toList_some, List.mem_singleton] at hdirection
        simp [hdirection, Emitter.propertyNames]
  · simp [hslot _ _ _ hjustify, Emitter.propertyNames]
  · simp [hslot _ _ _ halign, Emitter.propertyNames]
  · cases directionSlot with
    | false => simp at hthird
    | true => simp [hslot _ _ _ hthird, Emitter.propertyNames]

namespace Config.SortsKeys

open Declarations (Separated)

variable {config : Config} {scope : String → Prop}

/-- A token opens a scope. -/
theorem scope_of_token (h : config.SortsKeys scope) {table : SelectorTable} {token : SelectorToken}
    {key : String} (hkey : token.key? table = some key) : scope key := by
  obtain ⟨rest, rfl⟩ := SelectorToken.key?_eq_ampersand hkey
  exact h.ampersand rest

/-- A selector opens a scope. -/
theorem scope_of_selector (h : config.SortsKeys scope) {kind : SelectorKind}
    {param : Option String} {key : String} (hkey : kind.key? param = some key) : scope key := by
  obtain ⟨rest, rfl⟩ := SelectorKind.key?_eq_ampersand hkey
  exact h.ampersand rest

/-- What an alias emits has the shape. -/
theorem emit (h : config.SortsKeys scope) {name : String} {entry : Alias}
    (hentry : config.aliases.get? name = some entry) (raw : String) :
    Separated scope (entry.emit raw) := by
  have hproperty := h.property name entry hentry
  have hquoted := h.quoted name entry
  unfold Alias.emit
  cases hemitter : entry.emitter with
  | properties names =>
      refine Separated.ofTexts fun pair hpair => ?_
      obtain ⟨property, hmem, rfl⟩ := List.mem_map.mp hpair
      exact hproperty property (by rw [hemitter]; exact hmem)
  | quoted property key =>
      have hrule : Separated scope (Declarations.ofTexts
          [(property, "\"" ++ (entry.input raw).joined ++ "\"")]) := by
        refine Separated.ofTexts fun pair hpair => ?_
        obtain rfl := List.mem_singleton.mp hpair
        exact hproperty property (by rw [hemitter]; exact List.mem_singleton_self _)
      cases key with
      | none => exact hrule
      | some key => exact hrule.wrap (hquoted key hentry (by rw [hemitter]; rfl))
  | flex direction directionSlot =>
      refine Separated.ofTexts fun pair hpair => ?_
      exact hproperty pair.1 (by rw [hemitter]; exact Emitter.fst_mem_of_mem_flexTexts hpair)

/-- Nesting in the scopes of tokens keeps the shape. -/
theorem nest (h : config.SortsKeys scope) {rule : Declarations} (hrule : Separated scope rule)
    (table : SelectorTable) (tokens : List SelectorToken) :
    Separated scope (StyleProps.nest table rule tokens).1 :=
  nest_induction hrule (fun _ _ _ hkey hinner => hinner.wrap (h.scope_of_token hkey)) tokens

/-- Putting a rule under a media query keeps the shape. -/
theorem underQuery (h : config.SortsKeys scope) {media : Option String}
    {rule placed : Declarations} (hrule : Separated scope rule)
    (hplaced : config.underQuery? media rule = some placed) : Separated scope placed := by
  cases media with
  | none =>
      obtain rfl := Option.some.inj hplaced
      exact hrule
  | some name =>
      obtain ⟨query, hquery, rfl⟩ := Option.map_eq_some_iff.mp hplaced
      exact hrule.wrap (h.query name query hquery)

/-- What the items of a statement emit has the shape. -/
theorem itemRules (h : config.SortsKeys scope) (statement : Statement) :
    ∀ rule ∈ config.itemRules statement, Separated scope rule := by
  intro rule hrule
  obtain ⟨⟨name, raw⟩, _, hemit⟩ := List.mem_filterMap.mp hrule
  obtain ⟨entry, hentry, rfl⟩ := Option.map_eq_some_iff.mp hemit
  exact h.emit hentry raw

/-- The rule of a statement of an alias, in the scopes of its tokens, has the shape. -/
theorem aliasRule (h : config.SortsKeys scope) {name : String} {entry : Alias}
    (hentry : config.aliases.get? name = some entry) (statement : Statement) :
    Separated scope
      (StyleProps.nest config.tokens (entry.emit statement.value) statement.selectors).1 :=
  h.nest (h.emit hentry statement.value) config.tokens statement.selectors

/-- The rule of a statement of a selector, in the scopes of its tokens and of the selector, has the
shape. -/
theorem selectorRule (h : config.SortsKeys scope) {kind : SelectorKind} {param : Option String}
    {key : String} (hkey : kind.key? param = some key) (statement : Statement) :
    Separated scope ((StyleProps.nest config.tokens
      (Declarations.mergeAll [] (config.itemRules statement)) statement.selectors).1.wrap key) :=
  (h.nest (Separated.nil.mergeAll (h.itemRules statement)) config.tokens statement.selectors).wrap
    (h.scope_of_selector hkey)

/-- The fragments of a prop as an alias have the shape. -/
theorem fragmentsAsAlias (h : config.SortsKeys scope) (prop : String) (value : PropValue) :
    ∀ fragment ∈ config.fragmentsAsAlias prop value, Separated scope fragment := by
  intro fragment hmem
  obtain ⟨entry, statement, hentry, hfragment⟩ := exists_of_mem_fragmentsAsAlias hmem
  exact h.underQuery (h.aliasRule hentry statement) hfragment

/-- The fragments of a prop as a selector have the shape. -/
theorem fragmentsAsSelector (h : config.SortsKeys scope) (prop : String) (value : PropValue) :
    ∀ fragment ∈ config.fragmentsAsSelector prop value, Separated scope fragment := by
  intro fragment hmem
  obtain ⟨kind, param, key, statement, hkey, hfragment⟩ := exists_of_mem_fragmentsAsSelector hmem
  exact h.underQuery (h.selectorRule hkey statement) hfragment

/-- All fragments of props have the shape. -/
theorem fragments (h : config.SortsKeys scope) (props : Props) :
    ∀ fragment ∈ config.fragments props, Separated scope fragment := by
  intro fragment hmem
  rcases List.mem_append.mp hmem with halias | hselector
  · obtain ⟨⟨prop, value⟩, _, hfragment⟩ := List.mem_flatMap.mp halias
    exact h.fragmentsAsAlias prop value fragment hfragment
  · obtain ⟨⟨prop, value⟩, _, hfragment⟩ := List.mem_flatMap.mp hselector
    exact h.fragmentsAsSelector prop value fragment hfragment

end Config.SortsKeys

end StyleProps
