import StyleProps.Proofs.Builtin
import StyleProps.Proofs.Fragments
import StyleProps.Proofs.Sequencing

/-!
# Resolving as one fold

Resolving merges in groups: statements into a prop, props into one of two phases, and the second
phase into the first. The main result, `resolve_eq_mergeAll_fragments`, says that where properties
and scopes are separate, the outcome is that of merging all fragments one by one, with the same
order of keys at every depth. The regrouping rests on `Separated.merge_mergeAll`.
-/

namespace StyleProps

/-! ## Declarations in groups -/

/-- Merging nothing for what is missing is leaving it out. -/
theorem Declarations.mergeAll_map_getD {α : Type} (f : α → Option Declarations) (xs : List α)
    (target : Declarations) :
    target.mergeAll (xs.map fun x => (f x).getD []) = target.mergeAll (xs.filterMap f) := by
  induction xs generalizing target with
  | nil => rfl
  | cons x rest ih =>
      cases hx : f x with
      | none =>
          rw [List.filterMap_cons_none hx, ← ih target, List.map_cons, hx]
          rfl
      | some d =>
          rw [List.filterMap_cons_some hx, List.map_cons, hx]
          exact ih (target.merge d)

/-- Groups of sources that are merged by themselves first can be merged source by source. -/
theorem Declarations.Separated.mergeAll_flatMap {scope : String → Prop} {α : Type}
    (f : α → List Declarations) (xs : List α)
    (hf : ∀ x ∈ xs, ∀ source ∈ f x, Separated scope source) {target : Declarations}
    (htarget : Separated scope target) :
    target.mergeAll (xs.map fun x => Declarations.mergeAll [] (f x)) =
      target.mergeAll (xs.flatMap f) := by
  induction xs generalizing target with
  | nil => rfl
  | cons x rest ih =>
      have hx := hf x List.mem_cons_self
      have hrest : ∀ y ∈ rest, ∀ source ∈ f y, Separated scope source :=
        fun y hy => hf y (List.mem_cons_of_mem _ hy)
      calc target.mergeAll ((x :: rest).map fun x => Declarations.mergeAll [] (f x))
          = (target.merge (Declarations.mergeAll [] (f x))).mergeAll
              (rest.map fun x => Declarations.mergeAll [] (f x)) := rfl
        _ = (target.mergeAll (f x)).mergeAll
              (rest.map fun x => Declarations.mergeAll [] (f x)) := by
            rw [htarget.merge_mergeAll hx]
        _ = (target.mergeAll (f x)).mergeAll (rest.flatMap f) := ih hrest (htarget.mergeAll hx)
        _ = target.mergeAll ((x :: rest).flatMap f) := by
            rw [List.flatMap_cons]
            exact List.foldl_append.symm

namespace Resolver

/-- A rule under a media alias, with nothing for a rule that is dropped. -/
theorem declarations_underMedia (resolver : Resolver) (prop : String) (media : Option String)
    (rule : Declarations) :
    (resolver.underMedia prop media rule).declarations =
      (resolver.config.underQuery? media rule).getD [] := by
  cases media with
  | none => rfl
  | some name =>
      unfold underMedia Config.underQuery?
      cases hwrap : resolver.config.media.wrap? name rule with
      | none => simp [hwrap, Resolution.dropped]
      | some wrapped => simp [hwrap]

/-- A statement of an alias contributes its fragment. -/
theorem declarations_aliasStatement (resolver : Resolver) (entry : Alias) (prop : String)
    (statement : Statement) :
    (resolver.aliasStatement entry prop statement).declarations =
      (resolver.config.aliasFragment? entry statement).getD [] :=
  declarations_underMedia resolver prop statement.media _

/-- The items of a statement of a selector contribute what their aliases emit. -/
theorem declarations_items (resolver : Resolver) (prop : String) (statement : Statement) :
    (Resolution.all ((Statement.splitItems statement.value).map
        fun (name, raw) => resolver.item prop name raw)).declarations =
      Declarations.mergeAll [] (resolver.config.itemRules statement) := by
  have hitem : ∀ pair : String × String, (resolver.item prop pair.1 pair.2).declarations =
      (resolver.config.aliases.emit? pair.1 pair.2).getD [] := by
    intro pair
    unfold item
    cases resolver.config.aliases.emit? pair.1 pair.2 <;> rfl
  rw [Resolution.declarations_all, List.map_map, Config.itemRules,
    ← Declarations.mergeAll_map_getD]
  exact congrArg (Declarations.mergeAll []) (List.map_congr_left fun pair _ => hitem pair)

/-- A statement of a selector contributes its fragment. -/
theorem declarations_selectorStatement (resolver : Resolver) (scope prop : String)
    (statement : Statement) :
    (resolver.selectorStatement scope prop statement).declarations =
      (resolver.config.selectorFragment? scope statement).getD [] := by
  simp only [selectorStatement, declarations_items]
  exact declarations_underMedia resolver prop statement.media _

/-- A prop that is an alias contributes its fragments. -/
theorem declarations_asAlias (resolver : Resolver) (prop : String) (value : PropValue) :
    (resolver.asAlias prop value).declarations =
      Declarations.mergeAll [] (resolver.config.fragmentsAsAlias prop value) := by
  unfold asAlias Config.fragmentsAsAlias
  cases resolver.config.aliases.get? prop with
  | none => rfl
  | some entry =>
      simp only [aliasProp, Config.aliasFragments]
      cases aliasText value with
      | error problem => rfl
      | ok text =>
          simp only [Resolution.declarations_all, List.map_map]
          rw [← Declarations.mergeAll_map_getD]
          exact congrArg (Declarations.mergeAll [])
            (List.map_congr_left fun part _ => declarations_aliasStatement resolver entry prop _)

/-- A prop that is a selector contributes its fragments. -/
theorem declarations_asSelector (resolver : Resolver) (prop : String) (value : PropValue) :
    (resolver.asSelector prop value).declarations =
      Declarations.mergeAll [] (resolver.config.fragmentsAsSelector prop value) := by
  unfold asSelector Config.fragmentsAsSelector
  cases resolver.config.scopes.get? prop with
  | none => rfl
  | some kind =>
      simp only [selectorProp, Config.selectorFragments]
      cases selectorText value with
      | error problem => rfl
      | ok content =>
          obtain ⟨param, text⟩ := content
          simp only
          cases kind.key? param with
          | none => rfl
          | some scope =>
              simp only [Resolution.declarations_all, List.map_map]
              rw [← Declarations.mergeAll_map_getD]
              exact congrArg (Declarations.mergeAll []) (List.map_congr_left fun part _ =>
                declarations_selectorStatement resolver scope prop _)

/-- One phase of resolving: the contributions of all props, given by the fragments of each, are
merged fragment by fragment. -/
theorem declarations_phase {scope : String → Prop} (entries : List (String × PropValue))
    {contribution : String → PropValue → Resolution}
    {fragments : String → PropValue → List Declarations}
    (hcontribution : ∀ prop value, (contribution prop value).declarations =
      Declarations.mergeAll [] (fragments prop value))
    (hseparated : ∀ prop value, ∀ fragment ∈ fragments prop value,
      Declarations.Separated scope fragment) :
    (Resolution.all (entries.map fun (prop, value) => contribution prop value)).declarations =
      Declarations.mergeAll [] (entries.flatMap fun (prop, value) => fragments prop value) := by
  have hflat := Declarations.Separated.mergeAll_flatMap
    (fun (prop, value) => fragments prop value) entries
    (fun pair _ => hseparated pair.1 pair.2) .nil
  rw [← hflat, Resolution.declarations_all, List.map_map]
  exact congrArg (Declarations.mergeAll [])
    (List.map_congr_left fun pair _ => hcontribution pair.1 pair.2)

/-- Where a predicate sorts the keys, resolving is merging all fragments one by one. -/
theorem declarations_resolve {resolver : Resolver} {scope : String → Prop}
    (h : resolver.config.SortsKeys scope) (props : Props) :
    (resolver.resolve props).declarations =
      Declarations.mergeAll [] (resolver.config.fragments props) := by
  have hfirst := declarations_phase props.entries (declarations_asAlias resolver)
    h.fragmentsAsAlias
  have hsecond := declarations_phase props.entries (declarations_asSelector resolver)
    h.fragmentsAsSelector
  have hseparated := h.fragments props
  have hphase := Declarations.Separated.nil.mergeAll fun source hsource =>
    hseparated source (List.mem_append_left _ hsource)
  simp only [resolve, Resolution.followedBy, hfirst, hsecond]
  rw [hphase.merge_mergeAll fun source hsource =>
    hseparated source (List.mem_append_right _ hsource)]
  exact List.foldl_append.symm

/-- The built-in configuration keeps properties and scopes separate, and in every configuration that
does, in either mode, resolving is merging the fragments of all statements one by one into the empty
object. -/
theorem resolve_eq_mergeAll_fragments :
    Config.builtin.ScopeSeparated ∧
      ∀ config : Config, config.ScopeSeparated → ∀ (strict : Bool) (props : Props),
        (resolve ⟨config, strict⟩ props).declarations =
          Declarations.mergeAll Declarations.empty (config.fragments props) := by
  refine ⟨Config.builtin_scopeSeparated, fun config h strict props => ?_⟩
  have hsorts : (Resolver.mk config strict).config.SortsKeys config.IsScopeKey := h.sortsKeys
  exact declarations_resolve hsorts props

/-- Two aliases and a selector that share scopes, with an unknown media alias among them. -/
theorem resolve_eq_mergeAll_fragments_builtin :
    Config.builtin.ScopeSeparated ∧
      (resolve ⟨Config.builtin, true⟩ (Table.ofList
        [("hover", .text "p=[1];@md=color=red|@no=p=2"), ("p", .text "4|:hover@md=8"),
          ("contentBefore", .text "@md=[a]|:hover=b")])).declarations =
        Declarations.mergeAll Declarations.empty (Config.builtin.fragments (Table.ofList
          [("hover", .text "p=[1];@md=color=red|@no=p=2"), ("p", .text "4|:hover@md=8"),
            ("contentBefore", .text "@md=[a]|:hover=b")])) :=
  ⟨Config.builtin_scopeSeparated,
    resolve_eq_mergeAll_fragments.2 Config.builtin Config.builtin_scopeSeparated true _⟩

end Resolver

end StyleProps
