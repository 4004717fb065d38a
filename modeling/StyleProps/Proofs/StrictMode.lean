import StyleProps.Proofs.Sequencing

/-!
# Strict mode only observes

What strict mode changes: diagnostics are added, and nothing else. The main result,
`declarations_eq_and_diagnostics_eq_filter`, says that both modes resolve props to the same
declarations, and that the diagnostics of the lenient mode are those of the strict mode without the
ones that are reported in strict mode only. It follows from `lenient_resolve`, which is drawn from
one lemma for each function that resolving is made of: leaving the strict diagnostics out of what
the function gives in strict mode is what it gives in lenient mode.
-/

namespace StyleProps

namespace Resolution

/-- A resolution without the diagnostics that are reported in strict mode only. -/
def lenient (resolution : Resolution) : Resolution :=
  ⟨resolution.declarations,
    resolution.diagnostics.filter fun diagnostic => !diagnostic.problem.isStrictOnly⟩

/-- Diagnostics can be left out before one resolution follows another, or after. -/
theorem lenient_followedBy (first second : Resolution) :
    (first.followedBy second).lenient = first.lenient.followedBy second.lenient := by
  simp only [lenient, followedBy, List.filter_append]

/-- Diagnostics can be left out of each of the resolutions that follow one another. -/
theorem lenient_all (parts : List Resolution) :
    (all parts).lenient = all (parts.map lenient) := by
  rw [all_eq, all_eq, List.map_map, List.flatMap_map, lenient, List.filter_flatMap]
  rfl

/-- Resolutions that agree one by one, diagnostics left out, agree one after another. -/
theorem lenient_all_map {α : Type} {strict lax : α → Resolution}
    (h : ∀ x, (strict x).lenient = lax x) (xs : List α) :
    (all (xs.map strict)).lenient = all (xs.map lax) := by
  rw [lenient_all, List.map_map]
  exact congrArg all (List.map_congr_left fun x _ => h x)

/-- What is wrong with a prop that is dropped in both modes is not left out. -/
theorem lenient_dropped {problem : Problem} (h : problem.isStrictOnly = false) (prop : String) :
    (dropped prop problem).lenient = dropped prop problem := by
  simp [lenient, dropped, h]

end Resolution

namespace Resolver

open Resolution (lenient_all_map lenient_dropped lenient_followedBy)

/-! ## Problems -/

/-- In lenient mode, problems of strict mode are not reported. -/
@[simp] theorem strictly_lenient (config : Config) (prop : String) (problems : List Problem) :
    strictly ⟨config, false⟩ prop problems = [] := rfl

/-- Nothing is left of the diagnostics for problems of strict mode. -/
theorem filter_strictly {config : Config} (prop : String) {problems : List Problem}
    (h : ∀ problem ∈ problems, problem.isStrictOnly = true) :
    ((strictly ⟨config, true⟩ prop problems).filter
      fun diagnostic => !diagnostic.problem.isStrictOnly) = [] := by
  refine List.filter_eq_nil_iff.mpr fun diagnostic hmem => ?_
  obtain ⟨problem, hproblem, rfl⟩ := List.mem_map.mp hmem
  simp [h problem hproblem]

/-- What is wrong with the value of an alias is reported in both modes. -/
theorem isStrictOnly_of_aliasText {value : PropValue} {problem : Problem}
    (h : aliasText value = .error problem) : problem.isStrictOnly = false := by
  cases value with
  | null | bool _ | pair _ _ | other _ =>
      obtain rfl := Except.error.inj h
      rfl
  | number x => cases h
  | text content =>
      rw [aliasText] at h
      split at h
      · obtain rfl := Except.error.inj h
        rfl
      · cases h

/-- What is wrong with the value of a selector is reported in both modes. -/
theorem isStrictOnly_of_selectorText {value : PropValue} {problem : Problem}
    (h : selectorText value = .error problem) : problem.isStrictOnly = false := by
  cases value with
  | null | bool _ | number _ | other _ =>
      obtain rfl := Except.error.inj h
      rfl
  | text content | pair param content =>
      simp only [selectorText] at h
      split at h
      · obtain rfl := Except.error.inj h
        rfl
      · cases h

/-! ## Statements -/

/-- A rule under a media alias is the same in both modes, and so is its diagnostic. -/
theorem lenient_underMedia (config : Config) (prop : String) (media : Option String)
    (rule : Declarations) :
    (underMedia ⟨config, true⟩ prop media rule).lenient =
      underMedia ⟨config, false⟩ prop media rule := by
  unfold underMedia
  cases media with
  | none => rfl
  | some name =>
      simp only
      cases config.media.wrap? name rule with
      | some wrapped => rfl
      | none => exact lenient_dropped rfl prop

/-- Putting a rule in place in strict mode reports the tokens that open no scope besides. -/
theorem lenient_place (config : Config) (prop : String) (statement : Statement)
    (outer : Option String) (rule : Declarations) :
    (place ⟨config, true⟩ prop statement outer rule).lenient =
      place ⟨config, false⟩ prop statement outer rule := by
  have hunknown : ∀ tokens : List SelectorToken,
      ∀ problem ∈ tokens.map Problem.unknownSelector, problem.isStrictOnly = true := by
    intro tokens problem hmem
    obtain ⟨token, _, rfl⟩ := List.mem_map.mp hmem
    rfl
  unfold place
  simp only [Resolution.lenient, List.filter_append, filter_strictly prop (hunknown _),
    strictly_lenient, List.nil_append, ← lenient_underMedia]

/-- An item in strict mode reports an unknown alias besides. -/
theorem lenient_item (config : Config) (prop name raw : String) :
    (item ⟨config, true⟩ prop name raw).lenient = item ⟨config, false⟩ prop name raw := by
  have hunknown : ∀ problem ∈ [Problem.unknownAlias name], problem.isStrictOnly = true := by
    intro problem hmem
    rw [List.mem_singleton.mp hmem]
    rfl
  unfold item
  simp only
  cases config.aliases.emit? name raw with
  | some rule => rfl
  | none => simp only [Resolution.lenient, filter_strictly prop hunknown, strictly_lenient]

/-- A statement of a selector in strict mode reports what its items and its tokens add. -/
theorem lenient_selectorStatement (config : Config) (scope prop : String) (statement : Statement) :
    (selectorStatement ⟨config, true⟩ scope prop statement).lenient =
      selectorStatement ⟨config, false⟩ scope prop statement := by
  have hitems := lenient_all_map
    (fun pair : String × String => lenient_item config prop pair.1 pair.2)
    (Statement.splitItems statement.value)
  unfold selectorStatement
  simp only [← hitems, ← lenient_place]
  simp only [Resolution.lenient, List.filter_append]

/-! ## Props -/

/-- A prop contributes the same as an alias in both modes, strict diagnostics left out. -/
theorem lenient_asAlias (config : Config) (prop : String) (value : PropValue) :
    (asAlias ⟨config, true⟩ prop value).lenient = asAlias ⟨config, false⟩ prop value := by
  unfold asAlias
  simp only
  cases config.aliases.get? prop with
  | none => rfl
  | some entry =>
      simp only [aliasProp]
      cases htext : aliasText value with
      | error problem => exact lenient_dropped (isStrictOnly_of_aliasText htext) prop
      | ok text =>
          exact lenient_all_map
            (fun part => lenient_place config prop (Statement.parse part) none _) _

/-- A prop contributes the same as a selector in both modes, strict diagnostics left out. -/
theorem lenient_asSelector (config : Config) (prop : String) (value : PropValue) :
    (asSelector ⟨config, true⟩ prop value).lenient = asSelector ⟨config, false⟩ prop value := by
  unfold asSelector
  simp only
  cases config.scopes.get? prop with
  | none => rfl
  | some kind =>
      simp only [selectorProp]
      cases htext : selectorText value with
      | error problem => exact lenient_dropped (isStrictOnly_of_selectorText htext) prop
      | ok content =>
          obtain ⟨param, text⟩ := content
          simp only
          cases kind.key? param with
          | none => exact lenient_dropped rfl prop
          | some scope =>
              exact lenient_all_map (fun part =>
                lenient_selectorStatement config scope prop (Statement.parseScoped part)) _

/-- Strict diagnostics left out, all props resolve to the same in both modes. -/
theorem lenient_resolve (config : Config) (props : Props) :
    (resolve ⟨config, true⟩ props).lenient = resolve ⟨config, false⟩ props := by
  have haliases := lenient_all_map
    (fun pair : String × PropValue => lenient_asAlias config pair.1 pair.2) props.entries
  have hselectors := lenient_all_map
    (fun pair : String × PropValue => lenient_asSelector config pair.1 pair.2) props.entries
  unfold resolve
  simp only [lenient_followedBy, haliases, hselectors]

/-- Strict mode only adds diagnostics: in every configuration, all props resolve to the same
declarations in both modes, and the diagnostics of the lenient mode are those of the strict mode,
in the same order, without the unknown selectors and the unknown aliases. -/
theorem declarations_eq_and_diagnostics_eq_filter (config : Config) (props : Props) :
    (resolve ⟨config, false⟩ props).declarations = (resolve ⟨config, true⟩ props).declarations ∧
      (resolve ⟨config, false⟩ props).diagnostics =
        (resolve ⟨config, true⟩ props).diagnostics.filter
          fun diagnostic => !diagnostic.problem.isStrictOnly := by
  rw [← lenient_resolve config props]
  exact ⟨rfl, rfl⟩

end Resolver

end StyleProps
