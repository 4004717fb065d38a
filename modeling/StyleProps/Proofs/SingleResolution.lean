import StyleProps.Proofs.Visibility

/-!
# Resolving a single prop

What `resolveProp?` has to do with `resolve`. It leaves out what is empty and comes with a
diagnostic (`resolveProp?_eq`), and where every alias lists a property that is all that is empty. So
there the main result, `resolveProp?_eq_resolve_singleton`, needs no word about diagnostics: a prop
resolves to the same as among no others, if that is anything.
-/

namespace StyleProps

namespace Config

/-- Whether every alias that gives its value to properties lists at least one. -/
def ListsProperties (config : Config) : Prop :=
  ∀ name entry properties, config.aliases.get? name = some entry →
    entry.emitter = .properties properties → properties ≠ []

/-- Only an alias that gives its value to properties can list none. -/
theorem listsProperties_iff {config : Config} :
    config.ListsProperties ↔ config.EmitsDeclarations := by
  constructor
  · intro h name entry hentry
    cases hemitter : entry.emitter with
    | properties names => exact h name entry names hentry hemitter
    | quoted property scope => exact List.cons_ne_nil _ _
    | flex direction directionSlot => exact List.cons_ne_nil _ _
  · intro h name entry properties hentry hemitter
    have hnames := h name entry hentry
    rwa [hemitter] at hnames

end Config

namespace Resolver

open Resolution (empty_followedBy)

variable {resolver : Resolver} {prop : String} {value : PropValue}

/-- What a single prop resolves to is left out if it holds no declarations and there are
diagnostics, and if the prop is no style prop. -/
theorem resolveProp?_eq (resolver : Resolver) (prop : String) (value : PropValue) :
    resolver.resolveProp? prop value =
      let alone := resolver.resolve (Table.ofList [(prop, value)])
      if !resolver.isStyleProp prop then none
      else if alone.declarations.isEmpty && !alone.isClean then none
      else some alone.declarations := by
  have hall : Resolution.all [resolver.asAlias prop value, resolver.asSelector prop value] =
      resolver.resolve (Table.ofList [(prop, value)]) := by
    have halias := (resolver.isPlain_asAlias prop value).wellFormed
    rw [resolve_singleton, Resolution.all, List.foldl_cons, List.foldl_cons, List.foldl_nil,
      empty_followedBy halias]
  rw [← hall]
  rfl

/-- Where all aliases list a property, something was found wrong with a style prop of which no
declarations come. -/
theorem isClean_eq_false (h : resolver.config.EmitsDeclarations)
    (hprop : resolver.isStyleProp prop = true)
    (hempty : (resolver.resolve (Table.ofList [(prop, value)])).declarations = []) :
    (resolver.resolve (Table.ofList [(prop, value)])).isClean = false := by
  rcases isSeen_resolve_singleton h hprop value with hdeclarations | hdiagnostics
  · exact absurd hempty hdeclarations
  · simpa [Resolution.isClean] using hdiagnostics

/-- In every configuration in which every alias that gives its value to properties lists at least
one, in either mode, resolving a single prop gives nothing if the prop is no style prop or if no
declarations come of it among no others, and otherwise gives these declarations, with the same order
of keys. The built-in configuration is one of these, and they stay what they are when a document is
applied. -/
theorem resolveProp?_eq_resolve_singleton :
    (∀ config : Config, config.ListsProperties →
      ∀ (strict : Bool) (prop : String) (value : PropValue),
        let alone := (resolve ⟨config, strict⟩ (Table.ofList [(prop, value)])).declarations
        (isStyleProp ⟨config, strict⟩ prop = false ∨ alone = [] →
          resolveProp? ⟨config, strict⟩ prop value = none) ∧
        (isStyleProp ⟨config, strict⟩ prop = true → alone ≠ [] →
          resolveProp? ⟨config, strict⟩ prop value = some alone)) ∧
    Config.builtin.ListsProperties ∧
    ∀ config next : Config, config.ListsProperties → config.ExtendsTo next →
      next.ListsProperties := by
  refine ⟨fun config h strict prop value => ?agree, ?builtin, ?extend⟩
  case agree =>
    intro alone
    have hemits : (Resolver.mk config strict).config.EmitsDeclarations :=
      Config.listsProperties_iff.mp h
    rw [resolveProp?_eq]
    refine ⟨fun hnothing => ?_, fun hprop hne => ?_⟩
    · cases hprop : isStyleProp ⟨config, strict⟩ prop with
      | false => rfl
      | true =>
          have hempty : alone = [] := hnothing.resolve_left (by simp [hprop])
          have hunclean := isClean_eq_false hemits hprop hempty
          simp [show (resolve _ _).declarations = [] from hempty, hunclean]
    · simp [hprop, alone, hne]
  case builtin => exact Config.listsProperties_iff.mpr Config.builtin_emitsDeclarations
  case extend =>
    intro config next h hextends
    exact Config.listsProperties_iff.mpr ((Config.listsProperties_iff.mp h).extend hextends)

/-- Padding that is a selector too, with a statement under an unknown media alias. Besides it there
is another statement, or there is none. -/
theorem resolveProp?_eq_resolve_singleton_padding :
    let config := ((Config.empty.withAlias (.properties "p" ["padding"])).withAlias
      (.quoted "m" "margin" none)).withScope "p" (.pseudoClass "link")
    let resolver : Resolver := ⟨config, true⟩
    let alone := (resolver.resolve (Table.ofList [("p", .text "m=4|@zz=2")])).declarations
    config.ListsProperties ∧
      (resolver.isStyleProp "p" = true ∧ alone.keys = ["padding", "&:link"] ∧
        resolver.resolveProp? "p" (.text "m=4|@zz=2") = some alone) ∧
      ((resolver.resolve (Table.ofList [("p", .text "@zz=2")])).declarations = [] ∧
        resolver.resolveProp? "p" (.text "@zz=2") = none) ∧
      resolver.isStyleProp "onClick" = false ∧
        resolver.resolveProp? "onClick" (.text "m=4") = none := by
  intro config resolver alone
  have hlists : config.ListsProperties := by
    have hall : ∀ pair ∈ config.aliases.entries, pair.2.emitter.propertyNames ≠ [] := by
      decide +kernel
    exact Config.listsProperties_iff.mpr fun name entry hentry =>
      hall (name, entry) (Assoc.mem_of_get? hentry)
  have hprop : resolver.isStyleProp "p" = true := by decide +kernel
  have hkeys : alone.keys = ["padding", "&:link"] := by decide +kernel
  have hne : alone ≠ [] := by
    intro hnil
    rw [hnil] at hkeys
    cases hkeys
  have hempty : (resolver.resolve (Table.ofList [("p", .text "@zz=2")])).declarations = [] := by
    decide +kernel
  have hother : resolver.isStyleProp "onClick" = false := by decide +kernel
  have hagree := resolveProp?_eq_resolve_singleton.1 config hlists true
  exact ⟨hlists, ⟨hprop, hkeys, (hagree "p" _).2 hprop hne⟩,
    ⟨hempty, (hagree "p" _).1 (Or.inr hempty)⟩, hother, (hagree "onClick" _).1 (Or.inl hother)⟩

end Resolver

end StyleProps
