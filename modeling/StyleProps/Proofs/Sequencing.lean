import StyleProps.Proofs.Merge
import StyleProps.Resolution

/-!
# Resolutions one after another

What resolutions that follow each other come to. `all_eq` says it for any number of them: the
declarations are merged from left to right, and the diagnostics stand one after another. Resolving
props is two sweeps over them (`resolve_eq_sweep`), one for what they contribute as aliases and one
for what they contribute as selectors.
-/

namespace StyleProps.Resolution

/-- Of resolutions one after another, the declarations are merged from left to right, and the
diagnostics follow each other. -/
theorem all_eq (parts : List Resolution) :
    all parts =
      ⟨Declarations.mergeAll [] (parts.map declarations), parts.flatMap diagnostics⟩ := by
  have hfold : ∀ start : Resolution, parts.foldl followedBy start =
      ⟨start.declarations.mergeAll (parts.map declarations),
        start.diagnostics ++ parts.flatMap diagnostics⟩ := by
    induction parts with
    | nil =>
        intro start
        rw [List.flatMap_nil, List.append_nil]
        rfl
    | cons part rest ih =>
        intro start
        rw [List.foldl_cons, ih, List.flatMap_cons, ← List.append_assoc]
        rfl
  exact hfold empty

/-- The declarations of resolutions one after another are merged from left to right. -/
theorem declarations_all (parts : List Resolution) :
    (all parts).declarations = Declarations.mergeAll [] (parts.map declarations) := by
  rw [all_eq]

/-- What holds of the empty object, and which merges keep, holds of the declarations of resolutions
one after another if it holds of those of each. -/
theorem declarations_all_induction {motive : Declarations → Prop} (hnil : motive [])
    (hmerge : ∀ target source, motive target → motive source → motive (target.merge source))
    {parts : List Resolution} (h : ∀ part ∈ parts, motive part.declarations) :
    motive (all parts).declarations := by
  rw [declarations_all]
  refine Declarations.mergeAll_induction hmerge hnil fun source hsource => ?_
  obtain ⟨part, hpart, rfl⟩ := List.mem_map.mp hsource
  exact h part hpart

/-- The diagnostics of resolutions one after another follow each other. -/
theorem diagnostics_all (parts : List Resolution) :
    (all parts).diagnostics = parts.flatMap diagnostics := by
  rw [all_eq]

/-- Nothing before a resolution changes nothing. -/
theorem empty_followedBy {resolution : Resolution} (h : resolution.declarations.WellFormed) :
    empty.followedBy resolution = resolution := by
  rw [followedBy, empty, Declarations.nil_merge h, List.nil_append]

/-- Nothing after a resolution changes nothing. -/
theorem followedBy_empty (resolution : Resolution) : resolution.followedBy empty = resolution := by
  rw [followedBy, empty, List.append_nil]
  rfl

/-- A single resolution after nothing is that resolution. -/
theorem all_singleton {resolution : Resolution} (h : resolution.declarations.WellFormed) :
    all [resolution] = resolution :=
  empty_followedBy h

/-- What the contributions of props come to, one after another. -/
def sweep (contribution : String → PropValue → Resolution) (entries : List (String × PropValue)) :
    Resolution :=
  all (entries.map fun (prop, value) => contribution prop value)

/-- Resolving is a sweep over the props as aliases and a sweep over them as selectors. -/
theorem resolve_eq_sweep (resolver : Resolver) (props : Props) :
    resolver.resolve props =
      (sweep resolver.asAlias props.entries).followedBy (sweep resolver.asSelector props.entries) :=
  rfl

end StyleProps.Resolution
