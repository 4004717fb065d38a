import StyleProps.Proofs.Builtin
import StyleProps.Proofs.RuleText
import StyleProps.Proofs.SingleProp

/-!
# Scoped rules as aliases and as selectors

A rule of one alias in the scope of a selector can be written in the text of the alias, with the
selector as a token in front, and in the text of the selector, with the alias as an item. The main
result, `resolve_scoped_eq_relabel`, says that in the built-in configuration both give the same
declarations, and the same diagnostics up to the prop that they name. It follows from
`resolve_printItem_eq_relabel`, for all configurations that keep properties and scopes separate.
-/

namespace StyleProps

open Declarations (Separated)

/-- The pseudo token of a name, with a parameter if there is one. -/
def SelectorToken.pseudo (name : String) : Option String → SelectorToken
  | none => .named name
  | some param => .functional name param

/-- Whether a selector opens no scope without a parameter. -/
def SelectorKind.needsParam : SelectorKind → Bool
  | .pseudoClass _ | .pseudoElement _ => false
  | .functional _ | .combinator _ => true

/-- A selector that has the parameter that it needs opens a scope. -/
theorem SelectorKind.exists_key? {kind : SelectorKind} {param : Option String}
    (hneeds : kind.needsParam = true → param.isSome = true) (hparam : ∀ p ∈ param, p ≠ "") :
    ∃ key, kind.key? param = some key := by
  cases kind with
  | pseudoClass css => exact ⟨_, rfl⟩
  | pseudoElement css => exact ⟨_, rfl⟩
  | functional css | combinator joint =>
      obtain ⟨p, rfl⟩ := Option.isSome_iff_exists.mp (hneeds rfl)
      simp [SelectorKind.key?, Option.filter, hparam p rfl]

/-- A pseudo token opens the scope of its name. -/
theorem SelectorToken.key?_pseudo (table : SelectorTable) (name : String)
    (param : Option String) : (pseudo name param).key? table = table.key? name param := by
  cases param <;> rfl

/-- A pseudo token can be written if its name is a word and its parameter, if there is one, holds no
parentheses, brackets and bars. -/
theorem SelectorToken.printable_pseudo {name : String} {param : Option String}
    (hname : IsWordText name) (hparam : ∀ p ∈ param, FreeOf ['(', ')', '[', ']', '|'] p) :
    (pseudo name param).Printable := by
  cases param with
  | none => exact ⟨⟨hname, fun _ hp => by cases hp⟩, fun _ hp => by cases hp⟩
  | some param =>
      have hfree := hparam param rfl
      refine ⟨⟨hname, fun p hp => ?_⟩, fun p hp => ?_⟩
      · obtain rfl := Option.some.inj hp
        intro c hc hmem
        exact hfree c hc (List.mem_append_left ['[', ']', '|'] hmem)
      · obtain rfl := Option.some.inj hp
        intro c hc hmem
        exact hfree c hc (List.mem_append_right ['(', ')'] hmem)

namespace Resolution

/-- A resolution whose diagnostics name another prop. -/
def relabel (resolution : Resolution) (prop : String) : Resolution :=
  ⟨resolution.declarations, resolution.diagnostics.map fun diagnostic => ⟨prop, diagnostic.problem⟩⟩

end Resolution

namespace Resolver

open Resolution (all_singleton)

variable {resolver : Resolver}

/-! ## Putting a rule in place -/

/-- Putting a rule under a media query for another prop changes only the prop of the
diagnostics. -/
theorem relabel_underMedia (prop other : String) (media : Option String) (rule : Declarations) :
    (resolver.underMedia prop media rule).relabel other = resolver.underMedia other media rule := by
  cases media with
  | none => rfl
  | some name =>
      unfold underMedia
      cases hwrap : resolver.config.media.wrap? name rule with
      | none => simp only [hwrap]; rfl
      | some wrapped => simp only [hwrap]; rfl

/-- Putting a rule in place for another prop changes only the prop of the diagnostics. -/
theorem relabel_place (prop other : String) (statement : Statement) (outer : Option String)
    (rule : Declarations) :
    (resolver.place prop statement outer rule).relabel other =
      resolver.place other statement outer rule := by
  have hstrictly : ∀ problems : List Problem,
      (resolver.strictly prop problems).map (fun diagnostic => ⟨other, diagnostic.problem⟩) =
        resolver.strictly other problems := by
    intro problems
    unfold strictly
    split <;> simp
  unfold place
  simp only [Resolution.relabel, List.map_append, hstrictly]
  rw [← relabel_underMedia prop other]
  rfl

/-- A token in front opens the outer scope. -/
theorem place_under {token : SelectorToken} {key : String}
    (h : token.key? resolver.config.tokens = some key) (prop : String) (statement : Statement)
    (rule : Declarations) :
    resolver.place prop (statement.under token) none rule =
      resolver.place prop statement (some key) rule := by
  simp [place, Statement.under, nest, nestToken, h]

/-- Putting a rule in place keeps the shape. -/
theorem separated_place {scope : String → Prop} (h : resolver.config.SortsKeys scope)
    (prop : String) (statement : Statement) {outer : Option String}
    (houter : ∀ key ∈ outer, scope key) {rule : Declarations} (hrule : Separated scope rule) :
    Separated scope (resolver.place prop statement outer rule).declarations := by
  have hnested := h.nest hrule resolver.config.tokens statement.selectors
  have hunder : ∀ wrapped, Separated scope wrapped →
      Separated scope (resolver.underMedia prop statement.media wrapped).declarations := by
    intro wrapped hwrapped
    rw [declarations_underMedia]
    cases hplaced : resolver.config.underQuery? statement.media wrapped with
    | none => exact .nil
    | some placed => exact h.underQuery hwrapped hplaced
  cases outer with
  | none => exact hunder _ hnested
  | some key => exact hunder _ (hnested.wrap (houter key rfl))

/-! ## Props with a single rule -/

/-- An alias whose text is a single rule contributes that rule. -/
theorem aliasProp_printBare {scope : String → Prop} (h : resolver.config.SortsKeys scope)
    {prop : String} {entry : Alias} (hentry : resolver.config.aliases.get? prop = some entry)
    {statement : Statement} (hprint : statement.Printable) (hvalue : statement.value ≠ "") :
    resolver.aliasProp entry prop (.text statement.printBare) =
      resolver.place prop statement none (entry.emit statement.value) := by
  have hne : statement.printBare ≠ "" := by
    simp [Statement.printBare, Statement.escapeText, hvalue]
  have hrule := h.emit hentry statement.value
  have hscope : ∀ outer ∈ (none : Option String), scope outer := by simp
  have hplaced := separated_place h prop statement hscope hrule
  rw [aliasProp, aliasText, if_neg hne]
  simp only [hprint.split_printBare, List.map_cons, List.map_nil,
    hprint.parse_printBare hvalue]
  exact all_singleton hplaced.wellFormed

/-- The value of a selector: a text, together with a parameter if there is one. -/
def scopedValue (param : Option String) (text : String) : PropValue :=
  match param with
  | none => .text text
  | some param => .pair param text

/-- A selector whose text is a single item contributes the rule of that item. -/
theorem selectorProp_printItem {scope : String → Prop} (h : resolver.config.SortsKeys scope)
    {name : String} {entry : Alias} (hentry : resolver.config.aliases.get? name = some entry)
    (hname : IsWordText name) {kind : SelectorKind} {param : Option String} {key : String}
    (hkey : kind.key? param = some key) (prop : String) {statement : Statement}
    (hprint : statement.Printable) :
    resolver.selectorProp kind prop (scopedValue param (statement.printItem name)) =
      resolver.place prop statement (some key) (entry.emit statement.value) := by
  have hne : statement.printItem name ≠ "" := by
    simp [Statement.printItem, Statement.itemText]
  have htext : selectorText (scopedValue param (statement.printItem name)) =
      .ok (param, statement.printItem name) := by
    cases param <;> simp [selectorText, scopedValue, hne]
  have hrule := h.emit hentry statement.value
  have hitem : resolver.item prop name statement.value = ⟨entry.emit statement.value, []⟩ := by
    simp [item, AliasTable.emit?, hentry]
  have hscope : ∀ outer ∈ some key, scope outer := by
    intro outer houter
    obtain rfl := Option.some.inj houter
    exact h.scope_of_selector hkey
  have hplaced := separated_place h prop statement hscope hrule
  have hstatement : resolver.selectorStatement key prop
      { statement with value := Statement.itemText name statement.value } =
        resolver.place prop statement (some key) (entry.emit statement.value) := by
    simp only [selectorStatement, Statement.splitItems_itemText hname hprint.value, List.map_cons,
      List.map_nil, hitem]
    rw [all_singleton hrule.wellFormed]
    rfl
  simp only [selectorProp, htext, hkey, hprint.split_printItem hname, List.map_cons, List.map_nil,
    hprint.parseScoped_printItem hname, hstatement]
  exact all_singleton hplaced.wellFormed

/-- Where properties and scopes are separate, a rule in the scope that a token and a selector both
open is the same in the text of its alias and in that of the selector, up to the prop that the
diagnostics name. -/
theorem resolve_printItem_eq_relabel {config : Config} (strict : Bool) (h : config.ScopeSeparated)
    {name other : String} {entry : Alias} {kind : SelectorKind}
    (hentry : config.aliases.get? name = some entry) (hkind : config.scopes.get? other = some kind)
    (hscope : config.scopes.get? name = none) (halias : config.aliases.get? other = none)
    (hname : IsWordText name) {token : SelectorToken} {param : Option String} {key : String}
    (htoken : token.Printable) (hkey : token.key? config.tokens = some key)
    (hparam : kind.key? param = some key) {rule : Statement} (hprint : rule.Printable)
    (hvalue : rule.value ≠ "") :
    resolve ⟨config, strict⟩ (Table.ofList [(other, scopedValue param (rule.printItem name))]) =
      (resolve ⟨config, strict⟩
        (Table.ofList [(name, .text (rule.under token).printBare)])).relabel other := by
  have hsorts : (Resolver.mk config strict).config.SortsKeys config.IsScopeKey := h.sortsKeys
  have hbare : asAlias ⟨config, strict⟩ name (.text (rule.under token).printBare) =
      place ⟨config, strict⟩ name rule (some key) (entry.emit rule.value) := by
    simp only [asAlias, hentry]
    exact (aliasProp_printBare hsorts hentry (hprint.under htoken) hvalue).trans
      (place_under hkey name rule _)
  have hitem : asSelector ⟨config, strict⟩ other (scopedValue param (rule.printItem name)) =
      place ⟨config, strict⟩ other rule (some key) (entry.emit rule.value) := by
    simp only [asSelector, hkind]
    exact selectorProp_printItem hsorts hentry hname hparam other hprint
  rw [resolve_eq_asAlias ⟨config, strict⟩ hscope, resolve_eq_asSelector ⟨config, strict⟩ halias,
    hbare, hitem, relabel_place]

/-- In the built-in configuration, in either mode, a rule of an alias is the same under a pseudo
token and in the selector of its name, with or without a parameter, and the same under a combinator
token and in the selector of the combinator, up to the prop that the diagnostics name. -/
theorem resolve_scoped_eq_relabel (strict : Bool) {name : String} {rule : Statement}
    (halias : Config.builtin.aliases.contains name = true) (hprint : rule.Printable)
    (hvalue : rule.value ≠ "") :
    (∀ (other : String) (kind : SelectorKind) (param : Option String),
      Config.builtin.tokens.get? other = some kind →
      (kind.needsParam = true → param.isSome = true) →
      (∀ p ∈ param, p ≠ "" ∧ FreeOf ['(', ')', '[', ']', '|'] p) →
        resolve ⟨Config.builtin, strict⟩
            (Table.ofList [(other, scopedValue param (rule.printItem name))]) =
          (resolve ⟨Config.builtin, strict⟩
            (Table.ofList [(name, .text (rule.under (.pseudo other param)).printBare)])).relabel
              other) ∧
      ∀ (other : String) (joint : Combinator) (target : String),
        (other, joint) ∈ SelectorTable.combinators → IsWordText target →
          resolve ⟨Config.builtin, strict⟩
              (Table.ofList [(other, .pair target (rule.printItem name))]) =
            (resolve ⟨Config.builtin, strict⟩
              (Table.ofList [(name,
                .text (rule.under (.combinator joint target)).printBare)])).relabel other := by
  obtain ⟨entry, hentry⟩ := Option.isSome_iff_exists.mp halias
  have hname : IsWordText name := by
    rw [Config.builtin_aliases] at hentry
    exact AliasTable.isWordText_of_builtin hentry
  have hscope : Config.builtin.scopes.get? name = none := by
    cases hkind : Config.builtin.scopes.get? name with
    | none => rfl
    | some kind => cases hentry.symm.trans (Config.builtin_aliases_eq_none hkind)
  -- Both parts take the token and the selector to the same key.
  refine ⟨fun other kind param hkind hneeds hparam => ?_, fun other joint target hmem htarget => ?_⟩
  · rw [Config.builtin_tokens] at hkind
    obtain ⟨hprop, hword⟩ := SelectorTable.builtinProps_of_builtinTokens hkind
    obtain ⟨key, hkey⟩ := SelectorKind.exists_key? hneeds fun p hp => (hparam p hp).1
    have htoken : (SelectorToken.pseudo other param).key? Config.builtin.tokens = some key := by
      rw [SelectorToken.key?_pseudo, Config.builtin_tokens, SelectorTable.key?, hkind]
      exact hkey
    have hother : Config.builtin.scopes.get? other = some kind := by
      rw [Config.builtin_scopes]
      exact hprop
    exact resolve_printItem_eq_relabel strict Config.builtin_scopeSeparated hentry hother hscope
      (Config.builtin_aliases_eq_none hother) hname
      (SelectorToken.printable_pseudo hword fun p hp => (hparam p hp).2) htoken hkey hprint hvalue
  · have hother : Config.builtin.scopes.get? other = some (.combinator joint) := by
      rw [Config.builtin_scopes]
      exact SelectorTable.builtinProps_of_combinators hmem
    have hkey : (SelectorKind.combinator joint).key? (some target) =
        some (joint.selector target) := by
      simp [SelectorKind.key?, Option.filter, htarget.1]
    have htoken : (SelectorToken.combinator joint target).Printable :=
      ⟨⟨htarget, fun _ hp => by cases hp⟩, fun _ hp => by cases hp⟩
    exact resolve_printItem_eq_relabel strict Config.builtin_scopeSeparated hentry hother hscope
      (Config.builtin_aliases_eq_none hother) hname htoken rfl hkey hprint hvalue

/-- Padding behind a known and an unknown token, with separators in its value: as an `nthChild` and
as a direct child. -/
theorem resolve_scoped_eq_relabel_padding :
    resolve ⟨Config.builtin, true⟩
        (Table.ofList [("nthChild", .pair "2n" ":hover:no(1)@md=p=[1;2|3]")]) =
      (resolve ⟨Config.builtin, true⟩
        (Table.ofList [("p", .text ":nthChild(2n):hover:no(1)@md[1;2|3]")])).relabel "nthChild" ∧
    resolve ⟨Config.builtin, true⟩
        (Table.ofList [("directChild", .pair "li" ":hover:no(1)@md=p=[1;2|3]")]) =
      (resolve ⟨Config.builtin, true⟩
        (Table.ofList [("p", .text "& > li:hover:no(1)@md[1;2|3]")])).relabel "directChild" := by
  have halias : Config.builtin.aliases.contains "p" = true := by
    rw [Config.builtin_aliases]
    exact AliasTable.contains_builtin (by decide +kernel)
  have hkind : Config.builtin.tokens.get? "nthChild" = some (.functional "nth-child") := by
    rw [Config.builtin_tokens]
    decide +kernel
  have hrule := resolve_scoped_eq_relabel true halias
    (show (⟨[.named "hover", .functional "no" "1"], some "md", "1;2|3"⟩ : Statement).Printable by
      decide +kernel) (by decide)
  exact ⟨hrule.1 "nthChild" (.functional "nth-child") (some "2n") hkind (by decide)
      (by decide +kernel), hrule.2 "directChild" .child "li" (by decide) (by decide)⟩

end Resolver

end StyleProps
