import StyleProps.Proofs.Absence
import StyleProps.Proofs.Extension
import StyleProps.Proofs.SingleProp
import StyleProps.Proofs.Splitting

/-!
# No style prop is lost silently

Of every style prop, whatever its value is, either declarations come or a diagnostic. The main
result, `isStyleProp_iff_of_extendsTo`, says that this tells style props from all others, in every
configuration that the built-in one becomes by applying documents. It rests on the fact that every
alias of such a configuration lists a property, so that a rule is never empty (`emit_ne_nil`). From
there one lemma for each function that resolving is made of says that its outcome is seen.
-/

namespace StyleProps

/-! ## Rules are not empty -/

/-- What stores a text is not empty. -/
theorem Declarations.ofTexts_ne_nil {pairs : List (String × String)} (h : pairs ≠ []) :
    Declarations.ofTexts pairs ≠ [] := by
  obtain ⟨front, last, rfl⟩ := (List.eq_nil_or_concat pairs).resolve_left h
  rw [Declarations.ofTexts, List.concat_eq_append, List.foldl_append]
  exact Declarations.insert_ne_nil _ _ _

/-- An emitter that lists a property stores something, whatever its input is. -/
theorem Emitter.emit_ne_nil {emitter : Emitter} (h : emitter.propertyNames ≠ [])
    (input : EmitInput) : emitter.emit input ≠ [] := by
  cases emitter with
  | properties names =>
      refine Declarations.ofTexts_ne_nil fun hnil => h ?_
      exact List.map_eq_nil_iff.mp hnil
  | quoted property scope =>
      cases scope with
      | none => exact Declarations.ofTexts_ne_nil (List.cons_ne_nil _ _)
      | some key => exact List.cons_ne_nil _ _
  | flex direction directionSlot =>
      refine Declarations.ofTexts_ne_nil ?_
      simp [Emitter.flexTexts]

/-- A rule that is not empty is not empty in the scopes of tokens. -/
theorem nest_ne_nil {rule : Declarations} (h : rule ≠ []) (table : SelectorTable)
    (tokens : List SelectorToken) : (nest table rule tokens).1 ≠ [] :=
  nest_induction (motive := fun d => d ≠ []) h (fun _ _ _ _ _ => List.cons_ne_nil _ _) tokens

/-! ## Outcomes that are seen -/

namespace Resolution

/-- Whether declarations or diagnostics came of something. -/
def IsSeen (resolution : Resolution) : Prop :=
  resolution.declarations ≠ [] ∨ resolution.diagnostics ≠ []

/-- Of one resolution after another, something is seen exactly if something is seen of either. -/
theorem isSeen_followedBy_iff {first second : Resolution} :
    (first.followedBy second).IsSeen ↔ first.IsSeen ∨ second.IsSeen := by
  simp only [IsSeen, followedBy, ne_eq, Declarations.merge_eq_nil_iff, List.append_eq_nil_iff,
    Classical.not_and_iff_not_or_not]
  exact or_or_or_comm

/-- What is seen first is seen after something else followed. -/
theorem IsSeen.followedBy_left {first : Resolution} (h : first.IsSeen) (second : Resolution) :
    (first.followedBy second).IsSeen :=
  isSeen_followedBy_iff.mpr (Or.inl h)

/-- What follows and is seen is seen. -/
theorem IsSeen.followedBy_right {second : Resolution} (h : second.IsSeen) (first : Resolution) :
    (first.followedBy second).IsSeen :=
  isSeen_followedBy_iff.mpr (Or.inr h)

/-- Of resolutions one after another, something is seen exactly if something is seen of one of
them. -/
theorem isSeen_all_iff {parts : List Resolution} :
    (all parts).IsSeen ↔ ∃ part ∈ parts, part.IsSeen := by
  have hfold : ∀ start : Resolution, (parts.foldl followedBy start).IsSeen ↔
      start.IsSeen ∨ ∃ part ∈ parts, part.IsSeen := by
    induction parts with
    | nil => simp
    | cons part rest ih =>
        intro start
        rw [List.foldl_cons, ih, isSeen_followedBy_iff, or_assoc]
        simp only [List.mem_cons, exists_eq_or_imp]
  have hempty : ¬ empty.IsSeen := fun hseen => hseen.elim (absurd rfl) (absurd rfl)
  exact (hfold empty).trans (or_iff_right hempty)

/-- Of resolutions one after another, of which there is at least one, something is seen if something
is seen of each. -/
theorem isSeen_all_map {α : Type} {part : α → Resolution} (h : ∀ x, (part x).IsSeen) {xs : List α}
    (hne : xs ≠ []) : (all (xs.map part)).IsSeen := by
  obtain ⟨x, hx⟩ := List.exists_mem_of_ne_nil xs hne
  exact isSeen_all_iff.mpr ⟨part x, List.mem_map_of_mem hx, h x⟩

/-- A prop that is dropped is seen by its diagnostic. -/
theorem isSeen_dropped (prop : String) (problem : Problem) : (dropped prop problem).IsSeen :=
  Or.inr (List.cons_ne_nil _ _)

end Resolution

namespace Resolver

open Resolution (IsSeen diagnostics_sweep_singleton isSeen_all_map isSeen_dropped sweep
  resolve_eq_sweep)

variable {resolver : Resolver}

/-- A rule that is not empty is seen under a media alias, or the alias is reported. -/
theorem isSeen_underMedia {rule : Declarations} (h : rule ≠ []) (prop : String)
    (media : Option String) : (resolver.underMedia prop media rule).IsSeen := by
  unfold underMedia
  cases media with
  | none => exact Or.inl h
  | some name =>
      simp only
      cases hwrap : resolver.config.media.wrap? name rule with
      | none => exact isSeen_dropped prop _
      | some wrapped =>
          obtain ⟨query, _, rfl⟩ := Option.map_eq_some_iff.mp hwrap
          exact Or.inl (List.cons_ne_nil _ _)

/-- A rule that is put in place is seen, if it is not empty or stands in an outer scope. -/
theorem isSeen_place {outer : Option String} {rule : Declarations}
    (h : outer = none → rule ≠ []) (prop : String) (statement : Statement) :
    (resolver.place prop statement outer rule).IsSeen := by
  have hplaced : ∀ inner : Declarations, inner ≠ [] →
      ∀ reported : List Diagnostic, IsSeen
        ⟨(resolver.underMedia prop statement.media inner).declarations,
          reported ++ (resolver.underMedia prop statement.media inner).diagnostics⟩ := by
    intro inner hinner reported
    rcases isSeen_underMedia hinner prop statement.media with hdeclarations | hdiagnostics
    · exact Or.inl hdeclarations
    · exact Or.inr fun hnil => hdiagnostics (List.append_eq_nil_iff.mp hnil).2
  cases outer with
  | none => exact hplaced _ (nest_ne_nil (h rfl) _ _) _
  | some key => exact hplaced _ (List.cons_ne_nil _ _) _

/-- A statement of a selector is seen, even if no item of it can be used. -/
theorem isSeen_selectorStatement (scope prop : String) (statement : Statement) :
    (resolver.selectorStatement scope prop statement).IsSeen := by
  have hplace : ∀ rule, (resolver.place prop statement (some scope) rule).IsSeen :=
    fun rule =>
      isSeen_place (fun hnone => absurd hnone (Option.some_ne_none scope)) prop statement
  rcases hplace _ with hdeclarations | hdiagnostics
  · exact Or.inl hdeclarations
  · exact Or.inr fun hnil => hdiagnostics (List.append_eq_nil_iff.mp hnil).2

/-- A text has a statement. -/
theorem split_ne_nil (text : String) : Statement.split text ≠ [] := by
  rw [Statement.split, Ne, List.map_eq_nil_iff]
  exact Statement.splitOutside_ne_nil '|' text.toList

/-- An alias that lists a property is seen, whatever its value is. -/
theorem isSeen_aliasProp {entry : Alias} (h : entry.emitter.propertyNames ≠ []) (prop : String)
    (value : PropValue) : (resolver.aliasProp entry prop value).IsSeen := by
  unfold aliasProp
  cases aliasText value with
  | error problem => exact isSeen_dropped prop problem
  | ok text =>
      have hrule : ∀ raw, entry.emit raw ≠ [] :=
        fun raw => Emitter.emit_ne_nil h (entry.input raw)
      exact isSeen_all_map (fun part => isSeen_place (fun _ => hrule _) prop _) (split_ne_nil text)

/-- Where all aliases list a property, an alias is seen, whatever its value is. -/
theorem isSeen_asAlias (h : resolver.config.EmitsDeclarations) {prop : String}
    (halias : resolver.config.aliases.contains prop = true) (value : PropValue) :
    (resolver.asAlias prop value).IsSeen := by
  obtain ⟨entry, hentry⟩ := Option.isSome_iff_exists.mp halias
  simp only [asAlias, hentry]
  exact isSeen_aliasProp (h prop entry hentry) prop value

/-- A selector is seen, whatever its value is. -/
theorem isSeen_asSelector {prop : String}
    (hselector : resolver.config.scopes.contains prop = true) (value : PropValue) :
    (resolver.asSelector prop value).IsSeen := by
  obtain ⟨kind, hkind⟩ := Option.isSome_iff_exists.mp hselector
  simp only [asSelector, hkind, selectorProp]
  cases selectorText value with
  | error problem => exact isSeen_dropped prop problem
  | ok content =>
      obtain ⟨param, text⟩ := content
      simp only
      cases kind.key? param with
      | none => exact isSeen_dropped prop _
      | some scope =>
          exact isSeen_all_map (fun part => isSeen_selectorStatement scope prop _)
            (split_ne_nil text)

/-! ## Single props -/

/-- The diagnostics of resolving a single prop name it. -/
theorem about_resolve_singleton (resolver : Resolver) (prop : String) (value : PropValue) :
    (resolver.resolve (Table.ofList [(prop, value)])).About prop := by
  intro diagnostic hmem
  rw [resolve_eq_sweep, Table.entries_singleton] at hmem
  rcases List.mem_append.mp hmem with halias | hselector
  · rw [diagnostics_sweep_singleton] at halias
    exact about_asAlias resolver prop value diagnostic halias
  · rw [diagnostics_sweep_singleton] at hselector
    exact about_asSelector resolver prop value diagnostic hselector

/-- Where all aliases list a property, a single style prop is seen. -/
theorem isSeen_resolve_singleton (h : resolver.config.EmitsDeclarations) {prop : String}
    (hprop : resolver.isStyleProp prop = true) (value : PropValue) :
    (resolver.resolve (Table.ofList [(prop, value)])).IsSeen := by
  rcases Bool.or_eq_true_iff.mp hprop with halias | hselector
  · exact ((isSeen_asAlias h halias value).followedBy_right .empty).followedBy_left _
  · exact ((isSeen_asSelector hselector value).followedBy_right .empty).followedBy_right _

/-- Nothing comes of a prop that is no style prop. -/
theorem resolve_singleton_eq_empty {prop : String} (hprop : resolver.isStyleProp prop = false)
    (value : PropValue) : resolver.resolve (Table.ofList [(prop, value)]) = .empty := by
  obtain ⟨halias, hselector⟩ := Bool.or_eq_false_iff.mp hprop
  rw [resolve_eq_sweep, Table.entries_singleton]
  simp only [sweep, List.map_cons, List.map_nil,
    asAlias_eq_empty ((Table.contains_eq_false_iff _ prop).mp halias),
    asSelector_eq_empty ((Table.contains_eq_false_iff _ prop).mp hselector)]
  rfl

/-- In every configuration that the built-in one becomes by applying documents, in either mode, a
name is that of a style prop exactly if resolving a single prop of this name gives declarations or a
diagnostic that names it, whatever its value is. -/
theorem isStyleProp_iff_of_extendsTo {config : Config}
    (h : Relation.ReflTransGen Config.ExtendsTo Config.builtin config) (strict : Bool)
    (prop : String) (value : PropValue) :
    isStyleProp ⟨config, strict⟩ prop = true ↔
      (resolve ⟨config, strict⟩ (Table.ofList [(prop, value)])).declarations ≠ [] ∨
        ∃ diagnostic ∈ (resolve ⟨config, strict⟩ (Table.ofList [(prop, value)])).diagnostics,
          diagnostic.prop = prop := by
  have hemits : (Resolver.mk config strict).config.EmitsDeclarations :=
    Config.emitsDeclarations_of_extendsTo h
  constructor
  · intro hprop
    refine (isSeen_resolve_singleton hemits hprop value).imp_right fun hdiagnostics => ?_
    obtain ⟨diagnostic, hmem⟩ := List.exists_mem_of_ne_nil _ hdiagnostics
    exact ⟨diagnostic, hmem, about_resolve_singleton _ prop value diagnostic hmem⟩
  · intro hseen
    cases hprop : isStyleProp ⟨config, strict⟩ prop with
    | true => rfl
    | false =>
        rw [resolve_singleton_eq_empty hprop] at hseen
        rcases hseen with hdeclarations | ⟨diagnostic, hmem, _⟩
        · exact absurd rfl hdeclarations
        · cases hmem

/-- An alias of a document, with a value that is dropped for an unknown media alias. -/
theorem isStyleProp_iff_of_extendsTo_accent :
    ∃ config, Config.builtin.extend "aliases: {accent: {properties: [color]}}" = .ok config ∧
      Relation.ReflTransGen Config.ExtendsTo Config.builtin config ∧
      (isStyleProp ⟨config, false⟩ "accent" = true ↔
        (resolve ⟨config, false⟩
            (Table.ofList [("accent", .text "@no=red")])).declarations ≠ [] ∨
          ∃ diagnostic ∈ (resolve ⟨config, false⟩
              (Table.ofList [("accent", .text "@no=red")])).diagnostics,
            diagnostic.prop = "accent") := by
  have hok : (Config.builtin.extend "aliases: {accent: {properties: [color]}}").isOk = true := by
    decide +kernel
  cases hconfig : Config.builtin.extend "aliases: {accent: {properties: [color]}}" with
  | error e => simp [hconfig, Except.isOk, Except.toBool] at hok
  | ok config =>
      have hextends : Relation.ReflTransGen Config.ExtendsTo Config.builtin config :=
        .single ⟨_, hconfig⟩
      exact ⟨config, rfl, hextends, isStyleProp_iff_of_extendsTo hextends false "accent" _⟩

end Resolver

end StyleProps
