import StyleProps.Proofs.Nesting
import StyleProps.Proofs.SingleResolution
import StyleProps.Proofs.StrictMode

/-!
# Strict mode and single props

Whether strict mode changes what resolving a single prop gives. It adds diagnostics, and an empty
object is left out if there are diagnostics, so it does exactly for the props that come to nothing
and are reported in strict mode only: `resolveProp?_strict_eq_iff` names them. These are the hollow
ones (`Config.IsHollow`), aliases without properties whose statements have tokens that open no
scope. `exists_isIgnored` and `resolve_of_isIgnored` say that nothing else comes to nothing.
-/

namespace StyleProps

/-! ## Statements that leave no trace -/

/-- Whether a statement opens no scope and names no media alias. -/
structure Statement.IsTraceless (table : SelectorTable) (statement : Statement) : Prop where
  media : statement.media = none
  scopes : table.scopeKeys statement.selectors = []

/-- In the scopes of tokens of which none opens one, a rule stays as it is, and all tokens are
reported. -/
theorem nest_eq_of_scopeKeys_eq_nil {table : SelectorTable} {tokens : List SelectorToken}
    (h : table.scopeKeys tokens = []) (rule : Declarations) :
    nest table rule tokens = (rule, tokens.reverse) := by
  have hopens : ∀ token ∈ tokens, (!table.opens token) = true := by
    intro token hmem
    have hkey : token.key? table = none := List.filterMap_eq_nil_iff.mp h token hmem
    rw [SelectorTable.opens, hkey]
    rfl
  rw [nest_eq, h, List.filter_eq_self.mpr hopens, List.foldr_nil]

/-- In the scope of a token that opens one, something stands whatever the rule is. -/
theorem nest_ne_nil_of_scopeKeys {table : SelectorTable} {tokens : List SelectorToken}
    (h : table.scopeKeys tokens ≠ []) (rule : Declarations) :
    (nest table rule tokens).1 ≠ [] := by
  obtain ⟨key, keys, hkeys⟩ := List.exists_cons_of_ne_nil h
  rw [nest_eq, hkeys, List.foldr_cons]
  exact List.cons_ne_nil _ _

namespace Resolver

variable {resolver : Resolver}

/-- Under a media alias a rule is seen even if it is empty, or the alias is reported. -/
theorem isSeen_underMedia_some (prop name : String) (rule : Declarations) :
    (resolver.underMedia prop (some name) rule).IsSeen := by
  simp only [underMedia]
  cases hwrap : resolver.config.media.wrap? name rule with
  | none => exact Resolution.isSeen_dropped prop _
  | some wrapped =>
      obtain ⟨query, _, rfl⟩ := Option.map_eq_some_iff.mp hwrap
      exact Or.inl (List.cons_ne_nil _ _)

/-- Of an empty rule that a traceless statement puts in place, only the tokens are reported. -/
theorem place_of_isTraceless {statement : Statement}
    (h : statement.IsTraceless resolver.config.tokens) (prop : String) :
    resolver.place prop statement none [] =
      ⟨[], resolver.strictly prop (statement.selectors.reverse.map .unknownSelector)⟩ := by
  simp only [place, nest_eq_of_scopeKeys_eq_nil h.scopes, h.media, underMedia, List.append_nil]

/-- A statement that is not seen with an empty rule is traceless. -/
theorem isTraceless_of_not_isSeen {prop : String} {statement : Statement}
    (h : ¬ (resolver.place prop statement none []).IsSeen) :
    statement.IsTraceless resolver.config.tokens := by
  have hplaced : ¬ (resolver.underMedia prop statement.media
      (nest resolver.config.tokens [] statement.selectors).1).IsSeen := by
    intro hseen
    refine h (hseen.imp_right fun hdiagnostics hnil => ?_)
    exact hdiagnostics (List.append_eq_nil_iff.mp hnil).2
  have hmedia : statement.media = none := by
    cases hname : statement.media with
    | none => rfl
    | some name =>
        rw [hname] at hplaced
        exact absurd (isSeen_underMedia_some prop name _) hplaced
  refine ⟨hmedia, Classical.byContradiction fun hscopes => hplaced ?_⟩
  exact isSeen_underMedia (nest_ne_nil_of_scopeKeys hscopes []) prop statement.media

end Resolver

/-! ## Props of which nothing comes -/

/-- Only an emitter that gives its value to properties can store none. -/
theorem Emitter.eq_properties_nil {emitter : Emitter} (h : emitter.propertyNames = []) :
    emitter = .properties [] := by
  cases emitter with
  | properties names => exact congrArg Emitter.properties h
  | quoted property scope => exact absurd h (List.cons_ne_nil _ _)
  | flex direction directionSlot => exact absurd h (List.cons_ne_nil _ _)

namespace Config

/-- Whether nothing comes of a prop with the given style text: it is no selector, it is an alias
without properties, and the statements of the text are traceless. -/
structure IsIgnored (config : Config) (prop text : String) : Prop where
  scope : config.scopes.get? prop = none
  entry : ∃ entry, config.aliases.get? prop = some entry ∧ entry.emitter = .properties []
  statements : ∀ part ∈ Statement.split text, (Statement.parse part).IsTraceless config.tokens

/-- Whether nothing comes of a prop with a style text in which there are tokens. -/
def IsHollow (config : Config) (prop : String) (value : PropValue) : Prop :=
  ∃ text, Resolver.aliasText value = .ok text ∧ config.IsIgnored prop text ∧
    ∃ part ∈ Statement.split text, (Statement.parse part).selectors ≠ []

/-- An ignored prop is a style prop. -/
theorem IsIgnored.isStyleProp {config : Config} {prop text : String}
    (h : config.IsIgnored prop text) (strict : Bool) :
    Resolver.isStyleProp ⟨config, strict⟩ prop = true := by
  obtain ⟨entry, hentry, _⟩ := h.entry
  simp [Resolver.isStyleProp, Table.contains, hentry]

/-- Where every alias that gives its value to properties lists one, no prop is hollow. -/
theorem ListsProperties.not_isHollow {config : Config} (h : config.ListsProperties) (prop : String)
    (value : PropValue) : ¬ config.IsHollow prop value := by
  rintro ⟨text, _, hignored, _⟩
  obtain ⟨entry, hentry, hemitter⟩ := hignored.entry
  exact h prop entry [] hentry hemitter rfl

end Config

namespace Resolver

open Resolution (declarations_all_induction diagnostics_all isSeen_all_iff isSeen_dropped
  isSeen_followedBy_iff)

variable {resolver : Resolver} {prop : String} {value : PropValue}

/-- An alias without properties emits nothing. -/
theorem emit_eq_nil {entry : Alias} (h : entry.emitter = .properties []) (raw : String) :
    entry.emit raw = [] := by
  rw [Alias.emit, h]
  rfl

/-- A style prop of which nothing is seen is ignored. -/
theorem exists_isIgnored (hprop : resolver.isStyleProp prop = true)
    (h : ¬ (resolver.resolve (Table.ofList [(prop, value)])).IsSeen) :
    ∃ text, aliasText value = .ok text ∧ resolver.config.IsIgnored prop text := by
  rw [resolve_singleton, isSeen_followedBy_iff, not_or] at h
  obtain ⟨halias, hselector⟩ := h
  have hscope : resolver.config.scopes.contains prop = false :=
    Bool.eq_false_iff.mpr fun hcontains => hselector (isSeen_asSelector hcontains value)
  have hcontains : resolver.config.aliases.contains prop = true := by
    simpa [isStyleProp, hscope] using hprop
  obtain ⟨entry, hentry⟩ := Option.isSome_iff_exists.mp hcontains
  simp only [asAlias, show resolver.config.aliases.get? prop = some entry from hentry] at halias
  have hnames : entry.emitter.propertyNames = [] :=
    Classical.byContradiction fun hne => halias (isSeen_aliasProp hne prop value)
  have hemitter := Emitter.eq_properties_nil hnames
  unfold aliasProp at halias
  cases htext : aliasText value with
  | error problem =>
      rw [htext] at halias
      exact absurd (Resolution.isSeen_dropped prop problem) halias
  | ok text =>
      simp only [htext, Resolution.isSeen_all_iff] at halias
      refine ⟨text, rfl, (Table.contains_eq_false_iff _ _).mp hscope, ⟨entry, hentry, hemitter⟩,
        fun part hpart => ?_⟩
      have hunseen : ¬ (resolver.place prop (Statement.parse part) none []).IsSeen := by
        intro hseen
        refine halias ⟨_, List.mem_map_of_mem hpart, ?_⟩
        rwa [aliasStatement, emit_eq_nil hemitter]
      exact isTraceless_of_not_isSeen hunseen

/-- The reports of all tokens in a style text as unknown ones, which strict mode makes. -/
def tokenReports (resolver : Resolver) (prop text : String) : List Diagnostic :=
  (Statement.split text).flatMap fun part =>
    resolver.strictly prop ((Statement.parse part).selectors.reverse.map .unknownSelector)

/-- Tokens are reported exactly in strict mode and if there are any. -/
theorem tokenReports_eq_nil_iff {text : String} :
    resolver.tokenReports prop text = [] ↔
      (resolver.strict = true →
        ∀ part ∈ Statement.split text, (Statement.parse part).selectors = []) := by
  rw [tokenReports, List.flatMap_eq_nil_iff]
  cases hstrict : resolver.strict <;> simp [strictly, hstrict]

/-- Of an ignored prop, only the tokens of its statements are reported. -/
theorem resolve_of_isIgnored (resolver : Resolver) {text : String}
    (htext : aliasText value = .ok text) (h : resolver.config.IsIgnored prop text) :
    resolver.resolve (Table.ofList [(prop, value)]) = ⟨[], resolver.tokenReports prop text⟩ := by
  obtain ⟨entry, hentry, hemitter⟩ := h.entry
  have hparts : resolver.asAlias prop value =
      .all ((Statement.split text).map fun part => ⟨[], resolver.strictly prop
        ((Statement.parse part).selectors.reverse.map .unknownSelector)⟩) := by
    simp only [asAlias, hentry, aliasProp, htext]
    refine congrArg Resolution.all (List.map_congr_left fun part hpart => ?_)
    rw [aliasStatement, emit_eq_nil hemitter, place_of_isTraceless (h.statements part hpart)]
  have hempty : (resolver.asAlias prop value).declarations = [] := by
    rw [hparts]
    refine declarations_all_induction (motive := fun d => d = []) rfl ?_ fun part hpart => ?_
    · rintro _ _ rfl rfl
      rfl
    · obtain ⟨_, _, rfl⟩ := List.mem_map.mp hpart
      rfl
  have hreported : (resolver.asAlias prop value).diagnostics =
      resolver.tokenReports prop text := by
    rw [hparts, diagnostics_all, List.flatMap_map]
    rfl
  rw [resolve_eq_asAlias resolver h.scope, ← hempty, ← hreported]

/-! ## Both modes -/

/-- What is reported in strict mode only makes a hollow prop be left out. -/
theorem resolveProp?_of_isHollow {config : Config} (h : config.IsHollow prop value) :
    resolveProp? ⟨config, true⟩ prop value = none ∧
      resolveProp? ⟨config, false⟩ prop value = some [] := by
  obtain ⟨text, htext, hignored, part, hpart, htokens⟩ := h
  have hstrict := resolve_of_isIgnored ⟨config, true⟩ htext hignored
  have hlenient := resolve_of_isIgnored ⟨config, false⟩ htext hignored
  have hreported : tokenReports ⟨config, true⟩ prop text ≠ [] := by
    intro hnil
    exact htokens (tokenReports_eq_nil_iff.mp hnil rfl part hpart)
  have hunreported : tokenReports ⟨config, false⟩ prop text = [] :=
    tokenReports_eq_nil_iff.mpr nofun
  refine ⟨?_, ?_⟩
  · rw [resolveProp?_eq, hignored.isStyleProp true, hstrict]
    simpa [Resolution.isClean] using hreported
  · rw [resolveProp?_eq, hignored.isStyleProp false, hlenient]
    simp [Resolution.isClean, hunreported]

/-- If no declarations come of a style prop that is not hollow, something is reported in strict mode
exactly if something is in lenient mode. -/
theorem isClean_strict_eq {config : Config} (h : ¬ config.IsHollow prop value)
    (hprop : isStyleProp ⟨config, false⟩ prop = true)
    (hempty : (resolve ⟨config, false⟩ (Table.ofList [(prop, value)])).declarations = []) :
    (resolve ⟨config, true⟩ (Table.ofList [(prop, value)])).isClean =
      (resolve ⟨config, false⟩ (Table.ofList [(prop, value)])).isClean := by
  -- What is seen of an empty result is a report of lenient mode, and both modes make it.
  by_cases hseen : (resolve ⟨config, false⟩ (Table.ofList [(prop, value)])).IsSeen
  · have hlenient := hseen.resolve_left (absurd hempty)
    have hstrict : (resolve ⟨config, true⟩ (Table.ofList [(prop, value)])).diagnostics ≠ [] := by
      intro hnil
      rw [← lenient_resolve, Resolution.lenient, hnil] at hlenient
      exact hlenient rfl
    rw [Resolution.isClean, Resolution.isClean, List.isEmpty_eq_false_iff.mpr hlenient,
      List.isEmpty_eq_false_iff.mpr hstrict]
  · obtain ⟨text, htext, hignored⟩ := exists_isIgnored hprop hseen
    have htokens : ∀ part ∈ Statement.split text, (Statement.parse part).selectors = [] := by
      intro part hpart
      exact Classical.byContradiction fun hne => h ⟨text, htext, hignored, part, hpart, hne⟩
    have hnone : ∀ strict : Bool,
        (resolve ⟨config, strict⟩ (Table.ofList [(prop, value)])).isClean = true := by
      intro strict
      rw [resolve_of_isIgnored ⟨config, strict⟩ htext hignored, Resolution.isClean,
        List.isEmpty_iff]
      exact tokenReports_eq_nil_iff.mpr fun _ => htokens
    rw [hnone, hnone]

/-- Strict mode does not change what resolving a single prop gives, unless the prop is hollow. -/
theorem resolveProp?_strict_eq {config : Config} (h : ¬ config.IsHollow prop value) :
    resolveProp? ⟨config, true⟩ prop value = resolveProp? ⟨config, false⟩ prop value := by
  have hstyle : isStyleProp ⟨config, true⟩ prop = isStyleProp ⟨config, false⟩ prop := rfl
  have hdeclarations : (resolve ⟨config, true⟩ (Table.ofList [(prop, value)])).declarations =
      (resolve ⟨config, false⟩ (Table.ofList [(prop, value)])).declarations := by
    rw [← lenient_resolve]
    rfl
  simp only [resolveProp?_eq, hstyle, hdeclarations]
  cases hprop : isStyleProp ⟨config, false⟩ prop with
  | false => simp only [Bool.not_false, if_true]
  | true =>
      by_cases hempty :
          (resolve ⟨config, false⟩ (Table.ofList [(prop, value)])).declarations = []
      · rw [isClean_strict_eq h hprop hempty]
      · simp [hempty]

/-- In every configuration, strict mode does not change what resolving a single prop gives, unless
the prop is hollow. A hollow one is left out in strict mode and gives the empty object in lenient
mode. Where every alias that gives its value to properties lists one, there is no such prop. -/
theorem resolveProp?_strict_eq_iff (config : Config) (prop : String) (value : PropValue) :
    (resolveProp? ⟨config, true⟩ prop value = resolveProp? ⟨config, false⟩ prop value ↔
        ¬ config.IsHollow prop value) ∧
      (config.IsHollow prop value → resolveProp? ⟨config, true⟩ prop value = none ∧
        resolveProp? ⟨config, false⟩ prop value = some []) ∧
      (config.ListsProperties → ¬ config.IsHollow prop value) := by
  refine ⟨⟨fun heq hhollow => ?_, resolveProp?_strict_eq⟩, resolveProp?_of_isHollow,
    fun h => h.not_isHollow prop value⟩
  obtain ⟨hnone, hsome⟩ := resolveProp?_of_isHollow hhollow
  rw [hnone, hsome] at heq
  cases heq

/-- An alias without properties is hollow with a token that opens no scope, and is not with one that
does. Of the aliases of another configuration, each lists a property. -/
theorem resolveProp?_strict_eq_iff_none :
    let config := (Config.empty.withAlias (.properties "none" [])).withSelector "hover"
      (.pseudoClass "hover")
    let other := Config.empty.withAlias (.property "p" "padding")
    (config.IsHollow "none" (.text "x|:zz=y") ∧
        resolveProp? ⟨config, true⟩ "none" (.text "x|:zz=y") = none ∧
        resolveProp? ⟨config, false⟩ "none" (.text "x|:zz=y") = some []) ∧
      (¬ config.IsHollow "none" (.text "x|:zz:hover=y") ∧
        resolveProp? ⟨config, true⟩ "none" (.text "x|:zz:hover=y") =
          resolveProp? ⟨config, false⟩ "none" (.text "x|:zz:hover=y")) ∧
      other.ListsProperties ∧ ¬ other.IsHollow "p" (.text ":zz=x") := by
  intro config other
  have hstatements : ∀ part ∈ Statement.split "x|:zz=y", (Statement.parse part).media = none ∧
      config.tokens.scopeKeys (Statement.parse part).selectors = [] := by decide +kernel
  have hignored : config.IsIgnored "none" "x|:zz=y" :=
    ⟨rfl, ⟨_, rfl, rfl⟩, fun part hpart => ⟨(hstatements part hpart).1, (hstatements part hpart).2⟩⟩
  have hhollow : config.IsHollow "none" (.text "x|:zz=y") :=
    ⟨"x|:zz=y", rfl, hignored, by decide +kernel⟩
  have hopens : ¬ config.IsHollow "none" (.text "x|:zz:hover=y") := by
    rintro ⟨text, htext, hother, _⟩
    obtain rfl : "x|:zz:hover=y" = text := Except.ok.inj htext
    have hscopes := (hother.statements ":zz:hover=y" (by decide +kernel)).scopes
    exact absurd hscopes (by decide +kernel)
  have hlists : other.ListsProperties :=
    Config.listsProperties_iff.mpr fun name entry hentry => by
      have hmem : (name, entry) ∈ [("p", Alias.property "p" "padding")] := Assoc.mem_of_get? hentry
      cases List.mem_singleton.mp hmem
      exact List.cons_ne_nil _ _
  exact ⟨⟨hhollow, (resolveProp?_strict_eq_iff config "none" _).2.1 hhollow⟩,
    ⟨hopens, (resolveProp?_strict_eq_iff config "none" _).1.mpr hopens⟩, hlists,
    (resolveProp?_strict_eq_iff other "p" _).2.2 hlists⟩

/-- An alias without properties, with a token that opens no scope: strict mode changes what comes of
it from the empty object to nothing. -/
theorem resolveProp?_strict_ne :
    let config := Config.empty.withAlias (.properties "none" [])
    resolveProp? ⟨config, true⟩ "none" (.text ":zz=x") = none ∧
      resolveProp? ⟨config, false⟩ "none" (.text ":zz=x") = some [] ∧
      resolveProp? ⟨config, true⟩ "none" (.text ":zz=x") ≠
        resolveProp? ⟨config, false⟩ "none" (.text ":zz=x") := by
  intro config
  have hstrict : resolveProp? ⟨config, true⟩ "none" (.text ":zz=x") = none := by decide +kernel
  have hempty : (resolveProp? ⟨config, false⟩ "none" (.text ":zz=x")).map List.isEmpty =
      some true := by decide +kernel
  obtain ⟨d, hlenient, hd⟩ := Option.map_eq_some_iff.mp hempty
  rw [hstrict, hlenient, List.isEmpty_iff.mp hd]
  exact ⟨rfl, rfl, (Option.some_ne_none _).symm⟩

end Resolver

end StyleProps
