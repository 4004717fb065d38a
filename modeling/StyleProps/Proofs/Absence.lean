import StyleProps.Proofs.Sequencing

/-!
# Props that contribute nothing

What a prop of which nothing comes does to the others. The main result, `resolve_without`, says that
leaving it out changes no declaration and takes away its own diagnostics only, which are those of
resolving it by itself. Two facts carry it: every diagnostic names the prop that it is about, with
one lemma `about_` for each function that resolving is made of, and a merge is empty only if
there was nothing to merge.
-/

namespace StyleProps

namespace Resolution

/-- Whether all diagnostics of a resolution name the given prop. -/
def About (prop : String) (resolution : Resolution) : Prop :=
  ∀ diagnostic ∈ resolution.diagnostics, diagnostic.prop = prop

/-- What is not wrong with a prop names any. -/
theorem about_of_isClean {resolution : Resolution} (h : resolution.diagnostics = [])
    (prop : String) : resolution.About prop := by
  intro diagnostic hmem
  rw [h] at hmem
  cases hmem

/-- The diagnostic of a prop that is dropped names it. -/
theorem about_dropped (prop : String) (problem : Problem) : (dropped prop problem).About prop := by
  intro diagnostic hmem
  rw [List.mem_singleton.mp hmem]

/-- Resolutions about one prop are about it one after another. -/
theorem about_all_map {α : Type} {part : α → Resolution} {prop : String}
    (h : ∀ x, (part x).About prop) (xs : List α) : (all (xs.map part)).About prop := by
  intro diagnostic hmem
  rw [diagnostics_all, List.flatMap_map] at hmem
  obtain ⟨x, _, hx⟩ := List.mem_flatMap.mp hmem
  exact h x diagnostic hx

end Resolution

namespace Resolver

open Resolution (about_of_isClean about_dropped about_all_map)

variable (resolver : Resolver)

/-! ## Diagnostics name their prop -/

/-- Diagnostics of strict mode name the prop. -/
theorem prop_of_mem_strictly {prop : String} {problems : List Problem} {diagnostic : Diagnostic}
    (h : diagnostic ∈ resolver.strictly prop problems) : diagnostic.prop = prop := by
  unfold strictly at h
  split at h
  · obtain ⟨problem, _, rfl⟩ := List.mem_map.mp h
    rfl
  · cases h

/-- The diagnostic for an unknown media alias names the prop. -/
theorem about_underMedia (prop : String) (media : Option String) (rule : Declarations) :
    (resolver.underMedia prop media rule).About prop := by
  unfold underMedia
  cases media with
  | none => exact about_of_isClean rfl prop
  | some name =>
      simp only
      cases resolver.config.media.wrap? name rule with
      | some wrapped => exact about_of_isClean rfl prop
      | none => exact about_dropped prop _

/-- The diagnostics of a rule that is put in place name the prop. -/
theorem about_place (prop : String) (statement : Statement) (outer : Option String)
    (rule : Declarations) : (resolver.place prop statement outer rule).About prop := by
  intro diagnostic hmem
  rcases List.mem_append.mp hmem with htoken | hmedia
  · exact prop_of_mem_strictly resolver htoken
  · exact about_underMedia resolver prop statement.media _ diagnostic hmedia

/-- The diagnostic of an item names the prop, and not the alias of the item. -/
theorem about_item (prop name raw : String) : (resolver.item prop name raw).About prop := by
  unfold item
  cases resolver.config.aliases.emit? name raw with
  | some rule => exact about_of_isClean rfl prop
  | none => exact fun diagnostic hmem => prop_of_mem_strictly resolver hmem

/-- The diagnostics of a statement of a selector name the prop. -/
theorem about_selectorStatement (scope prop : String) (statement : Statement) :
    (resolver.selectorStatement scope prop statement).About prop := by
  intro diagnostic hmem
  rcases List.mem_append.mp hmem with hitems | hrule
  · exact about_all_map (fun pair : String × String => about_item resolver prop pair.1 pair.2) _
      diagnostic hitems
  · exact about_place resolver prop statement (some scope) _ diagnostic hrule

/-- The diagnostics of a prop as an alias name it. -/
theorem about_asAlias (prop : String) (value : PropValue) :
    (resolver.asAlias prop value).About prop := by
  unfold asAlias
  cases resolver.config.aliases.get? prop with
  | none => exact about_of_isClean rfl prop
  | some entry =>
      simp only [aliasProp]
      cases aliasText value with
      | error problem => exact about_dropped prop problem
      | ok text => exact about_all_map (fun part => about_place resolver prop _ none _) _

/-- The diagnostics of a prop as a selector name it. -/
theorem about_asSelector (prop : String) (value : PropValue) :
    (resolver.asSelector prop value).About prop := by
  unfold asSelector
  cases resolver.config.scopes.get? prop with
  | none => exact about_of_isClean rfl prop
  | some kind =>
      simp only [selectorProp]
      cases selectorText value with
      | error problem => exact about_dropped prop problem
      | ok content =>
          obtain ⟨param, text⟩ := content
          simp only
          cases kind.key? param with
          | none => exact about_dropped prop _
          | some scope =>
              exact about_all_map (fun part => about_selectorStatement resolver scope prop _) _

end Resolver

/-! ## Leaving a prop out -/

/-- The props without the one of the given name. -/
def Props.without (props : Props) (name : String) : Props where
  entries := props.entries.filter fun entry => entry.1 ≠ name
  nodup := props.nodup.sublist (List.filter_sublist.map Prod.fst)

/-- Without a prop that stands between others, the others are left. -/
theorem Props.entries_without {props : Props} {name : String} {value : PropValue}
    {front back : List (String × PropValue)}
    (hentries : props.entries = front ++ (name, value) :: back)
    (hfront : name ∉ Assoc.keys front) (hback : name ∉ Assoc.keys back) :
    (props.without name).entries = front ++ back := by
  have hkeep : ∀ entries : List (String × PropValue), name ∉ Assoc.keys entries →
      (entries.filter fun entry => entry.1 ≠ name) = entries := by
    intro entries habsent
    refine List.filter_eq_self.mpr fun entry hentry => ?_
    have hne : entry.1 ≠ name := by
      rintro rfl
      exact habsent (List.mem_map_of_mem hentry)
    simpa using hne
  have hdrop : (((name, value) :: back).filter fun entry => entry.1 ≠ name) =
      back.filter fun entry => entry.1 ≠ name := List.filter_cons_of_neg (by simp)
  show (props.entries.filter fun entry => entry.1 ≠ name) = front ++ back
  rw [hentries, List.filter_append, hkeep front hfront, hdrop, hkeep back hback]

namespace Resolution

section Sweep

variable {contribution : String → PropValue → Resolution} {name : String} {value : PropValue}
  {front back : List (String × PropValue)}

/-- The diagnostics of a sweep over props name these props only. -/
theorem prop_ne_of_mem_sweep (habout : ∀ name value, (contribution name value).About name)
    {entries : List (String × PropValue)} (h : name ∉ Assoc.keys entries)
    {diagnostic : Diagnostic} (hmem : diagnostic ∈ (sweep contribution entries).diagnostics) :
    diagnostic.prop ≠ name := by
  rw [sweep, diagnostics_all, List.flatMap_map] at hmem
  obtain ⟨⟨other, value⟩, hentry, hdiagnostic⟩ := List.mem_flatMap.mp hmem
  rintro rfl
  have hprop : diagnostic.prop = other := habout other value diagnostic hdiagnostic
  exact h (hprop ▸ Assoc.mem_keys_of_mem hentry)

/-- A sweep over props in which one contributes no declarations gives the declarations of the sweep
over the others. -/
theorem declarations_sweep_without (hempty : (contribution name value).declarations = []) :
    (sweep contribution (front ++ back)).declarations =
      (sweep contribution (front ++ (name, value) :: back)).declarations := by
  simp only [sweep, declarations_all, List.map_append, List.map_cons, hempty,
    Declarations.mergeAll, List.foldl_append, List.foldl_cons, Declarations.merge_nil]

/-- The diagnostics of a sweep are those of a sweep over a first part of the props and those of a
sweep over the rest. -/
theorem diagnostics_sweep_append (front back : List (String × PropValue)) :
    (sweep contribution (front ++ back)).diagnostics =
      (sweep contribution front).diagnostics ++ (sweep contribution back).diagnostics := by
  simp only [sweep, diagnostics_all, List.map_append, List.flatMap_append]

/-- The diagnostics of a sweep begin with those of the first prop. -/
theorem diagnostics_sweep_cons (name : String) (value : PropValue)
    (back : List (String × PropValue)) :
    (sweep contribution ((name, value) :: back)).diagnostics =
      (contribution name value).diagnostics ++ (sweep contribution back).diagnostics := by
  simp only [sweep, diagnostics_all, List.map_cons, List.flatMap_cons]

/-- The diagnostics of a sweep over a single prop are those of this one. -/
theorem diagnostics_sweep_singleton (name : String) (value : PropValue) :
    (sweep contribution [(name, value)]).diagnostics = (contribution name value).diagnostics := by
  rw [diagnostics_sweep_cons]
  exact List.append_nil _

/-- A sweep over all props but one gives the diagnostics that do not name this one. -/
theorem diagnostics_sweep_without (habout : ∀ name value, (contribution name value).About name)
    (hfront : name ∉ Assoc.keys front) (hback : name ∉ Assoc.keys back) :
    (sweep contribution (front ++ back)).diagnostics =
      (sweep contribution (front ++ (name, value) :: back)).diagnostics.filter
        fun diagnostic => diagnostic.prop ≠ name := by
  have hkeep : ∀ entries : List (String × PropValue), name ∉ Assoc.keys entries →
      (sweep contribution entries).diagnostics.filter (fun diagnostic => diagnostic.prop ≠ name) =
        (sweep contribution entries).diagnostics := by
    intro entries habsent
    refine List.filter_eq_self.mpr fun diagnostic hmem => ?_
    simpa using prop_ne_of_mem_sweep habout habsent hmem
  have hdrop : (contribution name value).diagnostics.filter
      (fun diagnostic => diagnostic.prop ≠ name) = [] := by
    refine List.filter_eq_nil_iff.mpr fun diagnostic hmem => ?_
    simpa using habout name value diagnostic hmem
  rw [diagnostics_sweep_append, diagnostics_sweep_append, diagnostics_sweep_cons,
    List.filter_append, List.filter_append, hkeep front hfront, hdrop, hkeep back hback,
    List.nil_append]

/-- The diagnostics of a sweep over props that name one of them are those of this one. -/
theorem filter_diagnostics_sweep (habout : ∀ name value, (contribution name value).About name)
    (hfront : name ∉ Assoc.keys front) (hback : name ∉ Assoc.keys back) :
    (sweep contribution (front ++ (name, value) :: back)).diagnostics.filter
        (fun diagnostic => diagnostic.prop = name) =
      (contribution name value).diagnostics := by
  have hdrop : ∀ entries : List (String × PropValue), name ∉ Assoc.keys entries →
      (sweep contribution entries).diagnostics.filter (fun diagnostic => diagnostic.prop = name) =
        [] := by
    intro entries habsent
    refine List.filter_eq_nil_iff.mpr fun diagnostic hmem => ?_
    simpa using prop_ne_of_mem_sweep habout habsent hmem
  have hkeep : (contribution name value).diagnostics.filter
      (fun diagnostic => diagnostic.prop = name) = (contribution name value).diagnostics := by
    refine List.filter_eq_self.mpr fun diagnostic hmem => ?_
    simpa using habout name value diagnostic hmem
  rw [diagnostics_sweep_append, diagnostics_sweep_cons, List.filter_append, List.filter_append,
    hdrop front hfront, hkeep, hdrop back hback, List.append_nil, List.nil_append]

end Sweep

end Resolution

namespace Resolver

open Resolution (declarations_sweep_without diagnostics_sweep_singleton
  diagnostics_sweep_without filter_diagnostics_sweep followedBy resolve_eq_sweep)

/-- If nothing comes of a single prop, it contributes nothing as an alias and as a selector. -/
theorem contributions_eq_nil {resolver : Resolver} {name : String} {value : PropValue}
    (h : (resolver.resolve (Table.ofList [(name, value)])).declarations = []) :
    (resolver.asAlias name value).declarations = [] ∧
      (resolver.asSelector name value).declarations = [] := by
  obtain ⟨halias, hselector⟩ := Declarations.merge_eq_nil_iff.mp h
  exact ⟨(Declarations.merge_eq_nil_iff.mp halias).2,
    (Declarations.merge_eq_nil_iff.mp hselector).2⟩

/-- In every configuration and mode, if no declarations come of a prop by itself, then without it
all props resolve to the same declarations, with the same order of keys, and to the same diagnostics
but for those that name the prop, in the same order. These are the diagnostics of resolving the prop
by itself, in the same order. -/
theorem resolve_without (resolver : Resolver) {props : Props} {name : String} {value : PropValue}
    (hprop : props.get? name = some value)
    (hempty : (resolver.resolve (Table.ofList [(name, value)])).declarations = []) :
    (resolver.resolve (props.without name)).declarations =
        (resolver.resolve props).declarations ∧
      (resolver.resolve (props.without name)).diagnostics =
        (resolver.resolve props).diagnostics.filter (fun diagnostic => diagnostic.prop ≠ name) ∧
      (resolver.resolve props).diagnostics.filter (fun diagnostic => diagnostic.prop = name) =
        (resolver.resolve (Table.ofList [(name, value)])).diagnostics := by
  obtain ⟨front, back, hentries, hfront, hback⟩ := Assoc.exists_append_of_get? props.nodup hprop
  obtain ⟨halias, hselector⟩ := contributions_eq_nil hempty
  have hothers := Props.entries_without hentries hfront hback
  simp only [resolve_eq_sweep, followedBy, hothers, hentries, Table.entries_singleton,
    List.filter_append]
  refine ⟨?declarations, ?others, ?own⟩
  case declarations =>
    rw [declarations_sweep_without halias, declarations_sweep_without hselector]
  case others =>
    rw [diagnostics_sweep_without (about_asAlias resolver) hfront hback,
      diagnostics_sweep_without (about_asSelector resolver) hfront hback]
  case own =>
    rw [filter_diagnostics_sweep (about_asAlias resolver) hfront hback,
      filter_diagnostics_sweep (about_asSelector resolver) hfront hback,
      diagnostics_sweep_singleton, diagnostics_sweep_singleton]

/-- The padding, an alias and a selector at once, is left out. Both of its contributions are dropped
for an unknown media alias, which the margin before it names too. -/
theorem resolve_without_padding :
    let config := ((Config.empty.withAlias (.property "p" "padding")).withAlias
      (.property "m" "margin")).withScope "p" (.pseudoClass "link")
    let resolver : Resolver := ⟨config, true⟩
    let props : Props := ⟨[("m", .text "1|:no@no=2"), ("p", .text "@no=m=4;x=1"), ("id", .null)],
      by decide⟩
    props.get? "p" = some (.text "@no=m=4;x=1") ∧
      (resolver.resolve (Table.ofList [("p", .text "@no=m=4;x=1")])).declarations = [] ∧
      (resolver.resolve (props.without "p")).declarations =
        (resolver.resolve props).declarations ∧
      (resolver.resolve (props.without "p")).diagnostics =
        (resolver.resolve props).diagnostics.filter (fun diagnostic => diagnostic.prop ≠ "p") ∧
      (resolver.resolve props).diagnostics.filter (fun diagnostic => diagnostic.prop = "p") =
        (resolver.resolve (Table.ofList [("p", .text "@no=m=4;x=1")])).diagnostics := by
  intro config resolver props
  have hprop : props.get? "p" = some (.text "@no=m=4;x=1") := rfl
  have hempty :
      (resolver.resolve (Table.ofList [("p", .text "@no=m=4;x=1")])).declarations = [] := by
    decide +kernel
  exact ⟨hprop, hempty, resolve_without resolver hprop hempty⟩

end Resolver

end StyleProps
