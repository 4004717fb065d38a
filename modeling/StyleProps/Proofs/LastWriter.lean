import StyleProps.Proofs.FlatFold
import StyleProps.Proofs.Paths

/-!
# The last writer wins

What resolving means, path by path. The main result, `textAt?_resolve_iff_lastWrite`, says that
where properties and scopes are separate, the text at a path is the one that the last statement to
write there writes, within a statement of a selector the last item to write there, and that the keys
of every object stand in the order in which they were first written.
-/

namespace StyleProps

open Declarations (LastWrite Separated)

/-- What the items of a statement of a selector write, each put in place by itself. -/
def Config.itemFragments (config : Config) (scope : String) (statement : Statement) :
    List Declarations :=
  (config.itemRules statement).filterMap (config.inScope? scope statement)

/-! ## Paths under scopes -/

/-- A way to put rules in place under which every path leads to a fixed path of the rule. A path
that leads nowhere is led to the empty path, which holds no text. -/
def RedirectsPaths (place : Declarations → Declarations) : Prop :=
  ∀ path, ∃ inner, ∀ rule, (place rule).textAt? path = rule.textAt? inner

namespace RedirectsPaths

/-- Leaving a rule where it is redirects no path. -/
theorem id : RedirectsPaths fun rule => rule :=
  fun path => ⟨path, fun _ => rfl⟩

/-- Two ways to put rules in place, one after the other. -/
theorem comp {first second : Declarations → Declarations} (hfirst : RedirectsPaths first)
    (hsecond : RedirectsPaths second) : RedirectsPaths fun rule => second (first rule) := by
  intro path
  obtain ⟨middle, hmiddle⟩ := hsecond path
  obtain ⟨inner, hinner⟩ := hfirst middle
  exact ⟨inner, fun rule => (hmiddle (first rule)).trans (hinner rule)⟩

/-- Putting a rule under a key redirects the paths that start with the key. -/
theorem wrap (key : String) : RedirectsPaths fun rule => rule.wrap key := by
  intro path
  cases path with
  | nil => exact ⟨[], fun _ => rfl⟩
  | cons first rest =>
      by_cases hfirst : key = first
      · refine ⟨rest, fun rule => ?_⟩
        cases rest with
        | nil => simp [Declarations.wrap, Declarations.textAt?, Declarations.get?, Assoc.get?,
            hfirst, Value.asText?]
        | cons next rest =>
            rw [Declarations.textAt?_cons_cons]
            simp [Declarations.wrap, Declarations.nested?, Declarations.get?, Assoc.get?, hfirst,
              Value.asNested?]
      · -- No other key is stored.
        refine ⟨[], fun rule => ?_⟩
        cases rest with
        | nil => simp [Declarations.wrap, Declarations.textAt?, Declarations.get?, Assoc.get?,
            hfirst]
        | cons next rest =>
            rw [Declarations.textAt?_cons_cons]
            simp [Declarations.wrap, Declarations.nested?, Declarations.get?, Assoc.get?, hfirst,
              Declarations.textAt?]

/-- Nesting in the scopes of tokens redirects paths. -/
theorem nest (table : SelectorTable) (tokens : List SelectorToken) :
    RedirectsPaths fun rule => (StyleProps.nest table rule tokens).1 := by
  induction tokens with
  | nil => exact id
  | cons token rest ih =>
      cases hkey : token.key? table with
      | none =>
          have hskip : ∀ rule, (StyleProps.nest table rule (token :: rest)).1 =
              (StyleProps.nest table rule rest).1 := by
            intro rule
            rw [nest_cons_of_none hkey]
          simpa only [hskip] using ih
      | some key =>
          have hwrap : ∀ rule, (StyleProps.nest table rule (token :: rest)).1 =
              (StyleProps.nest table rule rest).1.wrap key := by
            intro rule
            rw [nest_cons_of_some hkey]
          simpa only [hwrap] using ih.comp (wrap key)

/-- A statement whose media alias is known puts all rules in place in one way. -/
theorem of_inScope {config : Config} {scope : String} {statement : Statement}
    {rule fragment : Declarations} (h : config.inScope? scope statement rule = some fragment) :
    ∃ place, RedirectsPaths place ∧ ∀ rule, config.inScope? scope statement rule =
      some (place rule) := by
  have hinner := (nest config.tokens statement.selectors).comp (wrap scope)
  unfold Config.inScope? Config.underQuery? at *
  cases hmedia : statement.media with
  | none => exact ⟨_, hinner, fun _ => rfl⟩
  | some name =>
      rw [hmedia] at h
      obtain ⟨query, hquery, _⟩ := Option.map_eq_some_iff.mp h
      refine ⟨_, hinner.comp (wrap query), fun rule => ?_⟩
      simp [MediaTable.wrap?, hquery]

/-- The last writer among rules is the last writer among the rules put in place. -/
theorem lastWrite_map {place : Declarations → Declarations} {path inner : List String}
    (h : ∀ rule, (place rule).textAt? path = rule.textAt? inner) (rules : List Declarations)
    (content : String) : LastWrite (rules.map place) path content ↔
      LastWrite rules inner content := by
  rw [← Declarations.findSome?_reverse_eq_some_iff, ← Declarations.findSome?_reverse_eq_some_iff,
    ← List.map_reverse, List.findSome?_map]
  simp only [Function.comp_def, h]

end RedirectsPaths

/-! ## The last writer -/

/-- Merging sources into the empty object leaves at every path the text of the last writer. -/
theorem Declarations.Separated.textAt?_mergeAll_nil {scope : String → Prop}
    {sources : List Declarations} (h : ∀ source ∈ sources, Separated scope source)
    (path : List String) (content : String) :
    (Declarations.mergeAll [] sources).textAt? path = some content ↔
      LastWrite sources path content := by
  rw [Separated.nil.textAt?_mergeAll h, Declarations.textAt?_nil, Option.or_none,
    Declarations.findSome?_reverse_eq_some_iff]

/-- Merging sources into the empty object leaves keys in the order in which they first occur. -/
theorem Declarations.Separated.keysAt_mergeAll_nil {scope : String → Prop}
    {sources : List Declarations} (h : ∀ source ∈ sources, Separated scope source)
    (path : List String) : (Declarations.mergeAll [] sources).keysAt path =
      (sources.flatMap (·.keysAt path)).eraseDups := by
  rw [Separated.nil.keysAt_mergeAll h, Declarations.keysAt_nil, List.nil_append]

/-- In the fragment of a statement of a selector, the last item to write at a path wins. -/
theorem Config.SortsKeys.textAt?_selectorFragment {config : Config} {scopeKey : String → Prop}
    (h : config.SortsKeys scopeKey) {scope : String} {statement : Statement}
    {fragment : Declarations} (hfragment : config.selectorFragment? scope statement = some fragment)
    (path : List String) (content : String) :
    fragment.textAt? path = some content ↔
      LastWrite (config.itemFragments scope statement) path content := by
  obtain ⟨place, hplace, hall⟩ := RedirectsPaths.of_inScope hfragment
  obtain ⟨inner, hinner⟩ := hplace path
  have hitems : config.itemFragments scope statement = (config.itemRules statement).map place := by
    rw [Config.itemFragments, funext hall, List.filterMap_eq_map']
  rw [selectorFragment?, hall, Option.some.injEq] at hfragment
  rw [hitems, RedirectsPaths.lastWrite_map hinner, ← hfragment, hinner,
    Separated.textAt?_mergeAll_nil (h.itemRules statement)]

/-- The built-in configuration keeps properties and scopes separate, and in every configuration that
does, in either mode, the resolved object holds a text at a path exactly if the last statement that
writes there writes this text, where of the items of a statement of a selector the last one that
writes there counts. The keys of the object at every path stand in the order in which the fragments
first write them, and those of a statement of a selector in the order in which its items do. -/
theorem textAt?_resolve_iff_lastWrite :
    Config.builtin.ScopeSeparated ∧
      ∀ config : Config, config.ScopeSeparated → ∀ (strict : Bool) (props : Props),
        (∀ path content,
          (Resolver.resolve ⟨config, strict⟩ props).declarations.textAt? path = some content ↔
            LastWrite (config.fragments props) path content) ∧
        (∀ scope statement fragment,
          config.selectorFragment? scope statement = some fragment → ∀ path content,
            fragment.textAt? path = some content ↔
              LastWrite (config.itemFragments scope statement) path content) ∧
        (∀ path, (Resolver.resolve ⟨config, strict⟩ props).declarations.keysAt path =
          ((config.fragments props).flatMap (·.keysAt path)).eraseDups) ∧
        ∀ statement path, (Declarations.mergeAll [] (config.itemRules statement)).keysAt path =
          ((config.itemRules statement).flatMap (·.keysAt path)).eraseDups := by
  refine ⟨Config.builtin_scopeSeparated, fun config hseparated strict props => ?_⟩
  have hsorts : (Resolver.mk config strict).config.SortsKeys config.IsScopeKey :=
    hseparated.sortsKeys
  have hfragments := hsorts.fragments props
  rw [Resolver.declarations_resolve hsorts props]
  refine ⟨Separated.textAt?_mergeAll_nil hfragments, ?_, Separated.keysAt_mergeAll_nil hfragments,
    fun statement => Separated.keysAt_mergeAll_nil (hsorts.itemRules statement)⟩
  intro scope statement fragment hfragment path content
  exact hsorts.textAt?_selectorFragment hfragment path content

/-- Two statements for hovering write the same text: one of an alias, and a later one of a selector,
which has a second item for it. -/
theorem textAt?_resolve_iff_lastWrite_hover :
    Config.builtin.ScopeSeparated ∧
      ((Resolver.resolve ⟨Config.builtin, false⟩ (Table.ofList
          [("hover", .text "p=[1];color=red;p=[2]"), ("p", .text ":hover=[3]|@md=4")]
          )).declarations.textAt? ["&:hover", "padding"] = some "2" ↔
        LastWrite (Config.builtin.fragments (Table.ofList
          [("hover", .text "p=[1];color=red;p=[2]"), ("p", .text ":hover=[3]|@md=4")]))
          ["&:hover", "padding"] "2") :=
  ⟨Config.builtin_scopeSeparated,
    (textAt?_resolve_iff_lastWrite.2 Config.builtin Config.builtin_scopeSeparated false _).1 _ _⟩

end StyleProps
