import StyleProps.Proofs.FlatFold
import StyleProps.Proofs.Repetition

/-!
# Single props

What a single prop contributes, and what it resolves to by itself. A prop that is no selector
resolves to what it contributes as an alias (`resolve_eq_asAlias`), and one that is no alias to what
it contributes as a selector (`resolve_eq_asSelector`).
-/

namespace StyleProps

namespace Resolver

open Declarations (Separated)
open Resolution (all_singleton followedBy_empty empty_followedBy)

variable {resolver : Resolver} {scope : String → Prop}

/-- What a prop contributes as an alias has the shape. -/
theorem separated_asAlias (h : resolver.config.SortsKeys scope) (prop : String)
    (value : PropValue) : Separated scope (resolver.asAlias prop value).declarations := by
  rw [declarations_asAlias]
  exact Separated.nil.mergeAll (h.fragmentsAsAlias prop value)

/-- What a prop contributes as a selector has the shape. -/
theorem separated_asSelector (h : resolver.config.SortsKeys scope) (prop : String)
    (value : PropValue) : Separated scope (resolver.asSelector prop value).declarations := by
  rw [declarations_asSelector]
  exact Separated.nil.mergeAll (h.fragmentsAsSelector prop value)

/-- In every configuration, a single prop resolves to what it contributes as an alias and as a
selector. -/
theorem resolve_singleton (resolver : Resolver) (prop : String) (value : PropValue) :
    resolver.resolve (Table.ofList [(prop, value)]) =
      (resolver.asAlias prop value).followedBy (resolver.asSelector prop value) := by
  simp only [resolve, Table.entries_singleton, List.map_cons, List.map_nil]
  rw [all_singleton (resolver.isPlain_asAlias prop value).wellFormed,
    all_singleton (resolver.isPlain_asSelector prop value).wellFormed]

/-- A prop that is no alias contributes nothing as one. -/
theorem asAlias_eq_empty {prop : String} (h : resolver.config.aliases.get? prop = none)
    (value : PropValue) : resolver.asAlias prop value = .empty := by
  simp only [asAlias, h]

/-- A prop that is no selector contributes nothing as one. -/
theorem asSelector_eq_empty {prop : String} (h : resolver.config.scopes.get? prop = none)
    (value : PropValue) : resolver.asSelector prop value = .empty := by
  simp only [asSelector, h]

/-- A single prop that is no selector resolves to what it contributes as an alias. -/
theorem resolve_eq_asAlias (resolver : Resolver) {prop : String}
    (hprop : resolver.config.scopes.get? prop = none) (value : PropValue) :
    resolver.resolve (Table.ofList [(prop, value)]) = resolver.asAlias prop value := by
  rw [resolve_singleton, asSelector_eq_empty hprop, followedBy_empty]

/-- A single prop that is no alias resolves to what it contributes as a selector. -/
theorem resolve_eq_asSelector (resolver : Resolver) {prop : String}
    (hprop : resolver.config.aliases.get? prop = none) (value : PropValue) :
    resolver.resolve (Table.ofList [(prop, value)]) = resolver.asSelector prop value := by
  rw [resolve_singleton, asAlias_eq_empty hprop,
    empty_followedBy (resolver.isPlain_asSelector prop value).wellFormed]

end Resolver

end StyleProps
