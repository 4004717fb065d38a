import Mathlib.Logic.Relation
import StyleProps.Config.Document
import StyleProps.Proofs.Builtin
import StyleProps.Proofs.Traversal

/-!
# Extended configurations

What the documents that extend a configuration can put into it. `get?_aliases_of_extend` says which
aliases an extended configuration has: those it had before, and those that are compiled from a
definition of the document. So what holds of the built-in aliases and of all compiled ones holds in
every configuration that extends the built-in one; `emitsDeclarations_of_extendsTo` says it of the
fact that an alias lists a property.
-/

namespace StyleProps

/-! ## Documents -/

/-- The aliases of a document are compiled from its definitions, each under its name. -/
theorem ConfigDocument.exists_of_mem_compile {document : ConfigDocument} {entries : List Alias}
    (h : document.compile = .ok entries) {entry : Alias} (hmem : entry ∈ entries) :
    ∃ name definition, (name, definition) ∈ document.aliases.entries ∧
      definition.compile name = .ok entry := by
  obtain ⟨⟨name, definition⟩, hdefinition, hcompile⟩ := exists_of_mem_mapM h hmem
  exact ⟨name, definition, hdefinition, mapError_eq_ok_iff.mp hcompile⟩

namespace AliasDefinition

variable {definition : AliasDefinition} {name : String} {entry : Alias}

/-- Adding options leaves the emitter as it is. -/
@[simp] theorem emitter_withOptions (definition : AliasDefinition) (entry : Alias) :
    (definition.withOptions entry).emitter = entry.emitter := by
  unfold withOptions
  split <;> rfl

/-- A definition that compiles has properties and no blank one. It is quoted and has a single
property, or it is not quoted and has no scope. -/
theorem compile_cases (h : definition.compile name = .ok entry) :
    (∀ property ∈ definition.properties, Text.isBlankText property = false) ∧
      ((∃ property, definition.quoted = true ∧ definition.properties = [property] ∧
          entry = definition.withOptions (.quoted name property definition.scope)) ∨
        (definition.quoted = false ∧ definition.scope = none ∧ definition.properties ≠ [] ∧
          entry = definition.withOptions (.properties name definition.properties))) := by
  unfold compile at h
  by_cases hnone : definition.properties.isEmpty = true
  · simp [hnone] at h
  by_cases hblank : definition.properties.any Text.isBlankText = true
  · simp [hnone, hblank] at h
  by_cases hscope : (definition.scope.isSome && !definition.quoted) = true
  · simp [hnone, hblank, hscope] at h
  simp only [hnone, hblank, hscope, if_false, Bool.false_eq_true] at h
  refine ⟨by simpa using hblank, ?_⟩
  cases hquoted : definition.quoted with
  | true =>
      simp only [hquoted, if_true] at h
      split at h
      · next property hproperties =>
          exact Or.inl ⟨property, rfl, hproperties, (Except.ok.inj h).symm⟩
      · cases h
  | false =>
      simp only [hquoted, Bool.false_eq_true, if_false] at h
      refine Or.inr ⟨rfl, ?_, by simpa using hnone, (Except.ok.inj h).symm⟩
      simpa [hquoted] using hscope

/-- An alias that is compiled from a definition lists a property. -/
theorem propertyNames_ne_nil (h : definition.compile name = .ok entry) :
    entry.emitter.propertyNames ≠ [] := by
  rcases (compile_cases h).2 with ⟨property, _, _, rfl⟩ | ⟨_, _, hproperties, rfl⟩
  · rw [emitter_withOptions]
    exact List.cons_ne_nil property []
  · rw [emitter_withOptions]
    exact hproperties

end AliasDefinition

/-! ## Configurations -/

namespace Config

/-- A successful extension registers what a document defines, after compiling all of it. -/
theorem exists_of_extend {config next : Config} {text : String}
    (h : config.extend text = .ok next) :
    ∃ document entries, ConfigDocument.parse? text = some document ∧
      document.compile = .ok entries ∧
      next = { config with
        media := config.media.insertAll document.media.entries
        aliases := config.aliases.registerAll entries } := by
  unfold extend at h
  cases hdocument : ConfigDocument.parse? text with
  | none => rw [hdocument] at h; cases h
  | some document =>
      simp only [hdocument, apply] at h
      cases hcompile : document.compile with
      | error e => rw [hcompile] at h; cases h
      | ok entries =>
          rw [hcompile] at h
          exact ⟨document, entries, rfl, hcompile, (Except.ok.inj h).symm⟩

/-- An alias of an extended configuration was there before or is compiled from a definition. -/
theorem get?_aliases_of_extend {config next : Config} {text : String}
    (h : config.extend text = .ok next) {name : String} {entry : Alias}
    (hentry : next.aliases.get? name = some entry) :
    config.aliases.get? name = some entry ∨
      ∃ (other : String) (definition : AliasDefinition), definition.compile other = .ok entry := by
  obtain ⟨document, entries, _, hcompile, rfl⟩ := exists_of_extend h
  rw [AliasTable.get?_registerAll] at hentry
  rcases Option.or_eq_some_iff.mp hentry with hfound | ⟨_, hbefore⟩
  · have hmem : entry ∈ entries := List.mem_reverse.mp (List.mem_of_find?_eq_some hfound)
    obtain ⟨other, definition, _, hdefinition⟩ :=
      ConfigDocument.exists_of_mem_compile hcompile hmem
    exact Or.inr ⟨other, definition, hdefinition⟩
  · exact Or.inl hbefore

/-- Whether one configuration becomes another one by applying a document. -/
def ExtendsTo (config next : Config) : Prop :=
  ∃ text, config.extend text = .ok next

/-- Whether all aliases list a property, so that something is stored whatever their value is. -/
def EmitsDeclarations (config : Config) : Prop :=
  ∀ name entry, config.aliases.get? name = some entry → entry.emitter.propertyNames ≠ []

/-- The built-in aliases list properties. -/
theorem builtin_emitsDeclarations : builtin.EmitsDeclarations := by
  have hall : ∀ entry ∈ AliasTable.builtinEntries, entry.emitter.propertyNames ≠ [] := by
    decide +kernel
  intro name entry hentry
  rw [builtin_aliases] at hentry
  exact hall entry (AliasTable.mem_builtinEntries hentry).1

/-- Where all aliases list a property, they do after a document was applied. -/
theorem EmitsDeclarations.extend {config next : Config} (h : config.EmitsDeclarations)
    (hextends : config.ExtendsTo next) : next.EmitsDeclarations := by
  obtain ⟨text, htext⟩ := hextends
  intro name entry hentry
  rcases get?_aliases_of_extend htext hentry with hbefore | ⟨other, definition, hdefinition⟩
  · exact h name entry hbefore
  · exact definition.propertyNames_ne_nil hdefinition

/-- In every configuration that the built-in one becomes by applying documents, all aliases list a
property. -/
theorem emitsDeclarations_of_extendsTo {config : Config}
    (h : Relation.ReflTransGen ExtendsTo builtin config) : config.EmitsDeclarations := by
  induction h with
  | refl => exact builtin_emitsDeclarations
  | tail _ hextends ih => exact ih.extend hextends

end Config

end StyleProps
