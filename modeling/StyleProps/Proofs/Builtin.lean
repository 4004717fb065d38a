import StyleProps.Proofs.Fragments
import StyleProps.Proofs.Lexing

/-!
# Facts about the built-in configuration

The built-in aliases and selectors are checked one by one, by evaluation; every fact about the
built-in tables is drawn from these checks. Properties and scopes are separate
(`builtin_scopeSeparated`), and so are aliases and selectors (`builtin_aliases_eq_none`).
-/

namespace StyleProps

/-- The alias registered under a name is the last of the entries with this name, or else the one
that was registered before. -/
theorem AliasTable.get?_registerAll (table : AliasTable) (entries : List Alias) (name : String) :
    (registerAll table entries).get? name =
      (entries.reverse.find? fun entry => entry.name = name).or (table.get? name) := by
  induction entries generalizing table with
  | nil => rfl
  | cons first rest ih =>
      have hall : registerAll table (first :: rest) = registerAll (table.register first) rest := rfl
      rw [hall, ih, List.reverse_cons, List.find?_append, Option.or_assoc, register]
      by_cases h : first.name = name
      · subst h
        simp
      · simp [Table.get?_insert_of_ne table h, h]

/-- The built-in alias of a name is the last of the entries with this name. -/
theorem AliasTable.get?_builtin (name : String) :
    builtin.get? name = builtinEntries.reverse.find? fun entry => entry.name = name := by
  rw [builtin, get?_registerAll, Table.get?_empty, Option.or_none]

/-- A built-in alias is one of the entries, under its own name. -/
theorem AliasTable.mem_builtinEntries {name : String} {entry : Alias}
    (h : builtin.get? name = some entry) : entry ∈ builtinEntries ∧ entry.name = name := by
  rw [get?_builtin] at h
  exact ⟨List.mem_reverse.mp (List.mem_of_find?_eq_some h), by simpa using List.find?_some h⟩

/-- The name of every entry is that of a built-in alias. -/
theorem AliasTable.contains_builtin {name : String}
    (h : ∃ entry ∈ builtinEntries, entry.name = name) : builtin.contains name = true := by
  obtain ⟨entry, hmem, hname⟩ := h
  rw [Table.contains, get?_builtin, List.find?_isSome]
  exact ⟨entry, List.mem_reverse.mpr hmem, by simpa using hname⟩

/-- Whether no property of an emitter starts like a selector or a media query, and its scope starts
like a selector. -/
structure Emitter.IsPlain (emitter : Emitter) : Prop where
  not_ampersand : ∀ property ∈ emitter.propertyNames, ¬ "&".toList <+: property.toList
  not_media : ∀ property ∈ emitter.propertyNames, ¬ "@media".toList <+: property.toList
  scope : ∀ key ∈ emitter.scope?, "&".toList <+: key.toList

/-- Plain emitters can be told by looking at their keys. -/
instance (emitter : Emitter) : Decidable emitter.IsPlain :=
  decidable_of_iff
    ((∀ property ∈ emitter.propertyNames, ¬ "&".toList <+: property.toList) ∧
      (∀ property ∈ emitter.propertyNames, ¬ "@media".toList <+: property.toList) ∧
      ∀ key ∈ emitter.scope?, "&".toList <+: key.toList)
    ⟨fun ⟨hampersand, hmedia, hscope⟩ => ⟨hampersand, hmedia, hscope⟩,
      fun h => ⟨h.not_ampersand, h.not_media, h.scope⟩⟩

/-- The emitters of the built-in aliases are plain. -/
theorem AliasTable.isPlain_of_mem : ∀ entry ∈ builtinEntries, entry.emitter.IsPlain := by
  decide +kernel

/-- The built-in media queries start as such. -/
theorem MediaTable.prefix_of_builtin {name query : String} (h : builtin.get? name = some query) :
    "@media".toList <+: query.toList := by
  have hall : ∀ pair ∈ builtin.entries, "@media".toList <+: pair.2.toList := by decide +kernel
  exact hall _ (Assoc.mem_of_get? h)

/-- The emitters of the built-in configuration are plain. -/
theorem Config.builtin_isPlain {name : String} {entry : Alias}
    (h : Config.builtin.aliases.get? name = some entry) : entry.emitter.IsPlain := by
  rw [builtin_aliases] at h
  exact AliasTable.isPlain_of_mem entry (AliasTable.mem_builtinEntries h).1

/-- In the built-in configuration, properties and scopes are separate. -/
theorem Config.builtin_scopeSeparated : Config.builtin.ScopeSeparated := by
  intro name entry hentry property hproperty hscope
  have hplain := builtin_isPlain hentry
  rcases hscope with ⟨rest, rfl⟩ | ⟨media, hquery⟩ | ⟨other, quoted, hquoted, hkey⟩
  · refine hplain.not_ampersand _ hproperty ?_
    rw [String.toList_append]
    exact List.prefix_append _ _
  · rw [builtin_media] at hquery
    exact hplain.not_media property hproperty (MediaTable.prefix_of_builtin hquery)
  · exact hplain.not_ampersand property hproperty ((builtin_isPlain hquoted).scope property hkey)

/-! ## Names -/

/-- The names of the built-in aliases are words. -/
theorem AliasTable.isWordText_of_mem : ∀ entry ∈ builtinEntries, IsWordText entry.name := by
  decide +kernel

/-- No built-in alias is also a selector. -/
theorem AliasTable.not_mem_builtinProps :
    ∀ entry ∈ builtinEntries, entry.name ∉ SelectorTable.builtinProps.names := by
  decide +kernel

/-- The name of a built-in alias is a word. -/
theorem AliasTable.isWordText_of_builtin {name : String} {entry : Alias}
    (h : builtin.get? name = some entry) : IsWordText name := by
  obtain ⟨hmem, rfl⟩ := mem_builtinEntries h
  exact isWordText_of_mem entry hmem

/-- In the built-in configuration, no prop is both an alias and a selector. -/
theorem Config.builtin_aliases_eq_none {name : String} {kind : SelectorKind}
    (h : Config.builtin.scopes.get? name = some kind) :
    Config.builtin.aliases.get? name = none := by
  rw [builtin_scopes] at h
  rw [builtin_aliases]
  cases hentry : AliasTable.builtin.get? name with
  | none => rfl
  | some entry =>
      obtain ⟨hmem, rfl⟩ := AliasTable.mem_builtinEntries hentry
      exact absurd (Assoc.mem_keys_of_get? h) (AliasTable.not_mem_builtinProps entry hmem)

/-- What is known as a token is known as a prop name too, and its name is a word. -/
theorem SelectorTable.builtinProps_of_builtinTokens {name : String} {kind : SelectorKind}
    (h : builtinTokens.get? name = some kind) :
    builtinProps.get? name = some kind ∧ IsWordText name := by
  have hall : ∀ pair ∈ builtinTokens.entries,
      builtinProps.get? pair.1 = some pair.2 ∧ IsWordText pair.1 := by decide +kernel
  exact hall _ (Assoc.mem_of_get? h)

/-- The combinators are known as prop names. -/
theorem SelectorTable.builtinProps_of_combinators {name : String} {joint : Combinator}
    (h : (name, joint) ∈ combinators) : builtinProps.get? name = some (.combinator joint) := by
  have hall : ∀ pair ∈ combinators, builtinProps.get? pair.1 = some (.combinator pair.2) := by
    decide +kernel
  exact hall _ h

end StyleProps
