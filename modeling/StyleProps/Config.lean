import StyleProps.Alias.Builtin
import StyleProps.Media
import StyleProps.Selector.Builtin

/-!
# Configurations

The four tables that style props are resolved with: the aliases, the media aliases, the selectors
known as tokens of statements, and the selectors known as prop names.
-/

namespace StyleProps

/-- The tables that style props are resolved with. -/
structure Config where
  /-- The aliases. -/
  aliases : AliasTable
  /-- The media aliases. -/
  media : MediaTable
  /-- The selectors known as tokens of statements. -/
  tokens : SelectorTable
  /-- The selectors known as prop names. -/
  scopes : SelectorTable
deriving Inhabited

namespace Config

/-- The configuration without entries. -/
def empty : Config :=
  ⟨Table.empty, Table.empty, Table.empty, Table.empty⟩

/-- The built-in configuration. -/
def builtin : Config :=
  ⟨AliasTable.builtin, MediaTable.builtin, SelectorTable.builtinTokens, SelectorTable.builtinProps⟩

@[simp] theorem builtin_aliases : builtin.aliases = AliasTable.builtin := by rw [builtin]

@[simp] theorem builtin_media : builtin.media = MediaTable.builtin := by rw [builtin]

@[simp] theorem builtin_tokens : builtin.tokens = SelectorTable.builtinTokens := by rw [builtin]

@[simp] theorem builtin_scopes : builtin.scopes = SelectorTable.builtinProps := by rw [builtin]

/-- Registers an alias. -/
def withAlias (config : Config) (entry : Alias) : Config :=
  { config with aliases := config.aliases.register entry }

/-- Registers a media alias. -/
def withMedia (config : Config) (name query : String) : Config :=
  { config with media := config.media.insert name query }

/-- Registers a selector, both as a token of statements and as a prop name. -/
def withSelector (config : Config) (name : String) (kind : SelectorKind) : Config :=
  { config with
    tokens := config.tokens.insert name kind
    scopes := config.scopes.insert name kind }

/-- Registers a selector as a prop name only. -/
def withScope (config : Config) (name : String) (kind : SelectorKind) : Config :=
  { config with scopes := config.scopes.insert name kind }

/-- Whether two configurations agree, the order of entries and of symbolic values apart. -/
def sameDefinitions (a b : Config) : Bool :=
  a.aliases.sameEntries Alias.sameDefinition b.aliases &&
    a.media.sameEntries (· == ·) b.media &&
    a.tokens.sameEntries (· == ·) b.tokens &&
    a.scopes.sameEntries (· == ·) b.scopes

end Config

end StyleProps
