import StyleProps.Proofs.Extension

/-!
# Registrations

What a history of registrations leaves in the tables of a configuration. A `Config.Step` registers
an alias, a media alias or a selector, or applies a document; `Step.registrations` lists what it
registers, and nothing for a document that is refused. Every step stores what it registers
(`after_eq_store`), so the tables record the registrations of a step after those before it
(`Registered.after`), and those of a whole history one after another (`tables_afterAll`).
-/

namespace StyleProps

/-! ## Documents -/

/-- An alias with the name that it is registered under. -/
def Alias.named (entry : Alias) : String × Alias :=
  (entry.name, entry)

/-- Registering aliases one by one registers each under its name. -/
theorem AliasTable.registerAll_eq_insertAll (table : AliasTable) (entries : List Alias) :
    table.registerAll entries = table.insertAll (entries.map Alias.named) := by
  induction entries generalizing table with
  | nil => rfl
  | cons entry rest ih => exact ih (table.register entry)

/-- Adding options leaves the name as it is. -/
@[simp] theorem AliasDefinition.name_withOptions (definition : AliasDefinition) (entry : Alias) :
    (definition.withOptions entry).name = entry.name := by
  unfold withOptions
  split <;> rfl

/-- An alias has the name under which it is defined. -/
theorem AliasDefinition.name_of_compile {definition : AliasDefinition} {name : String}
    {entry : Alias} (h : definition.compile name = .ok entry) : entry.name = name := by
  rcases (compile_cases h).2 with ⟨property, _, _, rfl⟩ | ⟨_, _, _, rfl⟩
  · rw [name_withOptions]
    rfl
  · rw [name_withOptions]
    rfl

/-- The alias of a definition under the name of the definition, if the definition is valid. -/
def AliasDefinition.registration? (name : String) (definition : AliasDefinition) :
    Option (String × Alias) :=
  match definition.compile name with
  | .ok entry => some (name, entry)
  | .error _ => none

/-- The aliases of a document under the names of their definitions, if all definitions are valid. -/
def ConfigDocument.registrations? (document : ConfigDocument) : Option (List (String × Alias)) :=
  document.aliases.entries.mapM fun (name, definition) => definition.registration? name

/-- The registered aliases are the compiled ones, each under its own name. -/
theorem ConfigDocument.registrations?_eq (document : ConfigDocument) :
    document.registrations? = document.compile.toOption.map (List.map Alias.named) := by
  unfold registrations? compile
  induction document.aliases.entries with
  | nil => rfl
  | cons pair rest ih =>
      obtain ⟨name, definition⟩ := pair
      rw [List.mapM_cons, List.mapM_cons, ih]
      generalize rest.mapM (m := Except ConfigError) _ = compiled
      cases hentry : definition.compile name with
      | error fault =>
          simp only [AliasDefinition.registration?, hentry]
          rfl
      | ok entry =>
          have hnamed : (name, entry) = entry.named :=
            Prod.ext (AliasDefinition.name_of_compile hentry).symm rfl
          simp only [AliasDefinition.registration?, hentry, hnamed]
          cases compiled <;> rfl

/-! ## Histories -/

/-- What is registered in each of the four tables, from the first registration to the last. -/
structure Registrations where
  aliases : List (String × Alias) := []
  media : List (String × String) := []
  tokens : List (String × SelectorKind) := []
  scopes : List (String × SelectorKind) := []

/-- Registrations one after another. -/
def Registrations.followedBy (first second : Registrations) : Registrations :=
  ⟨first.aliases ++ second.aliases, first.media ++ second.media, first.tokens ++ second.tokens,
    first.scopes ++ second.scopes⟩

namespace Config

/-- A step in the history of a configuration. -/
inductive Step where
  /-- An alias is registered. -/
  | withAlias (entry : Alias)
  /-- A media alias is registered. -/
  | withMedia (name query : String)
  /-- A selector is registered as a token of statements and as a prop name. -/
  | withSelector (name : String) (kind : SelectorKind)
  /-- A selector is registered as a prop name only. -/
  | withScope (name : String) (kind : SelectorKind)
  /-- The text of a document is applied. -/
  | extend (text : String)

/-- The configuration after a step. A document that is refused changes nothing. -/
def after (config : Config) : Step → Config
  | .withAlias entry => config.withAlias entry
  | .withMedia name query => config.withMedia name query
  | .withSelector name kind => config.withSelector name kind
  | .withScope name kind => config.withScope name kind
  | .extend text =>
      match config.extend text with
      | .ok next => next
      | .error _ => config

/-- What the text of a document registers: its media aliases and its aliases in order, or nothing
if it cannot be read or if a definition is invalid. -/
def registrationsOf (text : String) : Registrations :=
  match ConfigDocument.parse? text with
  | none => {}
  | some document =>
      match document.registrations? with
      | none => {}
      | some aliases => { aliases, media := document.media.entries }

/-- What a step registers. -/
def Step.registrations : Step → Registrations
  | .withAlias entry => { aliases := [entry.named] }
  | .withMedia name query => { media := [(name, query)] }
  | .withSelector name kind => { tokens := [(name, kind)], scopes := [(name, kind)] }
  | .withScope name kind => { scopes := [(name, kind)] }
  | .extend text => registrationsOf text

/-- Where a history starts. -/
inductive Origin where
  | builtin
  | empty
  | default

/-- The configuration that a history starts from. The default one is the built-in one. -/
def Origin.config : Origin → Config
  | .builtin => Config.builtin
  | .empty => Config.empty
  | .default => Config.builtin

/-- What the built-in configuration registers. A built-in alias can be registered twice. -/
def builtinRegistrations : Registrations where
  aliases := AliasTable.builtinEntries.map Alias.named
  media := MediaTable.builtin.entries
  tokens := SelectorTable.tokenEntries
  scopes := SelectorTable.tokenEntries ++
    SelectorTable.combinators.map fun (name, joint) => (name, .combinator joint)

/-- What is registered where a history starts. -/
def Origin.registrations : Origin → Registrations
  | .builtin => builtinRegistrations
  | .empty => {}
  | .default => builtinRegistrations

/-- The configuration that a history leads to. -/
def afterAll (config : Config) (steps : List Step) : Config :=
  steps.foldl after config

/-- What is registered in the course of a history. -/
def logged (log : Registrations) (steps : List Step) : Registrations :=
  steps.foldl (fun log step => log.followedBy step.registrations) log

/-- Whether the tables of a configuration are what registrations leave. Aliases are registered under
their own names, and what is registered as a token is registered as a prop name too. -/
structure Registered (config : Config) (log : Registrations) : Prop where
  aliases : config.aliases.Records log.aliases
  media : config.media.Records log.media
  tokens : config.tokens.Records log.tokens
  scopes : config.scopes.Records log.scopes
  ownName : ∀ pair ∈ log.aliases, pair.2.name = pair.1
  inScope : ∀ name ∈ Assoc.keys log.tokens, name ∈ Assoc.keys log.scopes

/-- Aliases with their names are registered under their own names. -/
theorem name_eq_of_mem_named {entries : List Alias} :
    ∀ pair ∈ entries.map Alias.named, pair.2.name = pair.1 := by
  intro pair hmem
  obtain ⟨entry, _, rfl⟩ := List.mem_map.mp hmem
  rfl

/-- The tables of the empty configuration are what is left without registrations. -/
theorem registered_empty : Config.empty.Registered {} where
  aliases := .empty
  media := .empty
  tokens := .empty
  scopes := .empty
  ownName := nofun
  inScope := nofun

/-- The tables of the built-in configuration are what its registrations leave. -/
theorem registered_builtin : Config.builtin.Registered builtinRegistrations where
  aliases := by
    rw [builtin_aliases, AliasTable.builtin, AliasTable.registerAll_eq_insertAll]
    exact .ofList _
  media := by
    rw [builtin_media]
    exact .entries _
  tokens := by
    rw [builtin_tokens]
    exact .ofList _
  scopes := by
    rw [builtin_scopes]
    exact (Table.Records.ofList _).insertAll _
  ownName := name_eq_of_mem_named
  inScope := by
    intro name hmem
    rw [builtinRegistrations, Assoc.keys_append]
    exact List.mem_append_left _ hmem

/-- The tables of the configuration where a history starts are what its registrations leave. -/
theorem Origin.registered (origin : Origin) : origin.config.Registered origin.registrations := by
  cases origin with
  | builtin | default => exact registered_builtin
  | empty => exact registered_empty

/-! ## Steps and histories -/

/-- The configuration with further registrations. -/
def store (config : Config) (log : Registrations) : Config where
  aliases := config.aliases.insertAll log.aliases
  media := config.media.insertAll log.media
  tokens := config.tokens.insertAll log.tokens
  scopes := config.scopes.insertAll log.scopes

/-- Every step stores what it registers. -/
theorem after_eq_store (config : Config) (step : Step) :
    config.after step = config.store step.registrations := by
  cases step with
  | withAlias _ | withMedia _ _ | withSelector _ _ | withScope _ _ => rfl
  | extend text =>
      simp only [after, Step.registrations, registrationsOf, Config.extend]
      cases ConfigDocument.parse? text with
      | none => rfl
      | some document =>
          simp only [apply, ConfigDocument.registrations?_eq]
          cases document.compile with
          | error e => rfl
          | ok entries =>
              simp only [AliasTable.registerAll_eq_insertAll]
              rfl

/-- A step registers aliases under their own names. -/
theorem Step.ownName (step : Step) : ∀ pair ∈ step.registrations.aliases, pair.2.name = pair.1 := by
  cases step with
  | withAlias entry => exact @name_eq_of_mem_named [entry]
  | withMedia _ _ | withSelector _ _ | withScope _ _ => exact nofun
  | extend text =>
      simp only [registrations, registrationsOf]
      cases ConfigDocument.parse? text with
      | none => exact nofun
      | some document =>
          simp only [ConfigDocument.registrations?_eq]
          cases document.compile with
          | error e => exact nofun
          | ok entries => exact name_eq_of_mem_named

/-- A document registers no token. -/
theorem tokens_registrationsOf (text : String) : (registrationsOf text).tokens = [] := by
  unfold registrationsOf
  split
  · rfl
  · split <;> rfl

/-- A step registers no token that it does not register as a prop name. -/
theorem Step.inScope (step : Step) :
    ∀ name ∈ Assoc.keys step.registrations.tokens, name ∈ Assoc.keys step.registrations.scopes := by
  cases step with
  | withSelector _ _ => exact fun _ hmem => hmem
  | withAlias _ | withMedia _ _ | withScope _ _ => exact nofun
  | extend text => simp [registrations, tokens_registrationsOf]

/-- A step adds what it registers. -/
theorem Registered.after {config : Config} {log : Registrations} (h : config.Registered log)
    (step : Step) : (config.after step).Registered (log.followedBy step.registrations) := by
  rw [after_eq_store]
  refine ⟨h.aliases.insertAll _, h.media.insertAll _, h.tokens.insertAll _, h.scopes.insertAll _,
    fun pair hmem => ?ownName, fun name hmem => ?inScope⟩
  case ownName =>
    rcases List.mem_append.mp hmem with hold | hnew
    · exact h.ownName pair hold
    · exact step.ownName pair hnew
  case inScope =>
    simp only [Registrations.followedBy, Assoc.keys_append, List.mem_append] at hmem ⊢
    exact hmem.imp (h.inScope name) (step.inScope name)

/-- A history adds what it registers, step by step. -/
theorem Registered.afterAll {config : Config} {log : Registrations} (h : config.Registered log)
    (steps : List Step) : (config.afterAll steps).Registered (logged log steps) := by
  -- The history is followed from its start, so the configuration and the log vary.
  induction steps generalizing config log with
  | nil => exact h
  | cons step rest ih => exact ih (h.after step)

/-- A document that is refused registers nothing. -/
theorem registrationsOf_of_error {config : Config} {text : String} {error : ConfigError}
    (h : config.extend text = .error error) : registrationsOf text = {} := by
  unfold Config.extend at h
  unfold registrationsOf
  cases hdocument : ConfigDocument.parse? text with
  | none => rfl
  | some document =>
      simp only [hdocument, apply] at h
      cases hcompile : document.compile with
      | error e => simp [ConfigDocument.registrations?_eq, hcompile, Except.toOption]
      | ok entries => simp [hcompile] at h

/-- Whatever is registered and whatever documents are applied, from the built-in, the empty or the
default configuration on: in each of the four tables, the names are distinct and stand in the order
of their first registration, and each of them has the value of its last one. Every alias is stored
under its own name, so what is emitted under a name is emitted by an alias of this name. Every token
is known as a prop name too. A document that is refused changes nothing. -/
theorem tables_afterAll (origin : Origin) (steps : List Step) :
    let config := origin.config.afterAll steps
    let log := logged origin.registrations steps
    config.aliases.Records log.aliases ∧ config.media.Records log.media ∧
      config.tokens.Records log.tokens ∧ config.scopes.Records log.scopes ∧
      (∀ name entry, config.aliases.get? name = some entry → entry.name = name) ∧
      (∀ name raw declarations, config.aliases.emit? name raw = some declarations →
        ∃ entry : Alias, entry.name = name ∧ Assoc.get? name log.aliases.reverse = some entry ∧
          entry.emit raw = declarations) ∧
      (∀ name ∈ config.tokens.names, name ∈ config.scopes.names) ∧
      ∀ text error, config.extend text = .error error →
        config.after (.extend text) = config ∧ registrationsOf text = {} := by
  intro config log
  have h : config.Registered log := origin.registered.afterAll steps
  have hown : ∀ name entry, config.aliases.get? name = some entry → entry.name = name :=
    fun name entry hentry => h.ownName _ (h.aliases.mem_of_get? hentry)
  refine ⟨h.aliases, h.media, h.tokens, h.scopes, hown, ?emit, ?tokens, ?refused⟩
  case emit =>
    intro name raw declarations hemit
    obtain ⟨entry, hentry, hdeclarations⟩ := Option.map_eq_some_iff.mp hemit
    exact ⟨entry, hown name entry hentry, h.aliases.last name ▸ hentry, hdeclarations⟩
  case tokens =>
    intro name hmem
    exact h.scopes.mem_names_iff.mpr (h.inScope name (h.tokens.mem_names_iff.mp hmem))
  case refused =>
    intro text error herror
    refine ⟨?_, registrationsOf_of_error herror⟩
    rw [after, herror]

/-- A media alias and an alias come from a document, a selector is registered, a second document is
refused, and the media alias is registered again, before another one. -/
theorem tables_afterAll_tablet :
    let refused := "aliases: {broken: {properties: []}}"
    let steps : List Step :=
      [.extend "media: {tablet: wide}\naliases: {accent: {properties: [color]}}",
        .withSelector "open" (.pseudoClass "popover-open"), .extend refused,
        .withMedia "tablet" "wider", .withMedia "watch" "narrow"]
    let config := Origin.builtin.config.afterAll steps
    config.media.names = MediaTable.builtin.names ++ ["tablet", "watch"] ∧
      config.media.get? "tablet" = some "wider" ∧
      (∃ entry : Alias, entry.name = "accent" ∧
        config.aliases.emit? "accent" "red" = some (entry.emit "red")) ∧
      "open" ∈ config.scopes.names ∧ config.after (.extend refused) = config := by
  intro refused steps config
  obtain ⟨haliases, hmedia, htokens, _, _, hemit, hscope, hrefused⟩ :=
    tables_afterAll .builtin steps
  refine ⟨hmedia.names.trans (by decide +kernel), (hmedia.last _).trans (by decide +kernel),
    ?accent, hscope "open" ?token, ?refused⟩
  case accent =>
    have hfound : (config.aliases.get? "accent").isSome = true := by
      rw [haliases.last]
      decide +kernel
    obtain ⟨entry, hentry⟩ := Option.isSome_iff_exists.mp hfound
    have hemitted : config.aliases.emit? "accent" "red" = some (entry.emit "red") := by
      rw [AliasTable.emit?, hentry, Option.map_some]
    obtain ⟨other, hname, _, hother⟩ := hemit "accent" "red" _ hemitted
    exact ⟨other, hname, hother ▸ hemitted⟩
  case token => exact htokens.names ▸ (by decide +kernel)
  case refused =>
    have hfails : (config.extend refused).isOk = false := by decide +kernel
    cases herror : config.extend refused with
    | error error => exact (hrefused refused error herror).1
    | ok next => simp [herror, Except.isOk, Except.toBool] at hfails

end Config

end StyleProps
