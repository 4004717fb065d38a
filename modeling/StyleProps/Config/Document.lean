import StyleProps.Config
import StyleProps.Text.Blank
import StyleProps.Yaml.Decode

/-!
# Configuration documents

A YAML document that extends a configuration with media aliases and aliases. `ConfigDocument.parse?`
reads a document, `AliasDefinition.compile` checks a definition and gives its alias, and
`Config.extend` applies a text to a configuration. Nothing is applied if any definition is invalid.
-/

namespace StyleProps

/-- The definition of an alias in a document. -/
structure AliasDefinition where
  /-- The properties that get the value. -/
  properties : List String
  /-- The symbolic values. -/
  options : Table String
  /-- Whether the value is put in double quotes. -/
  quoted : Bool
  /-- The scope that the declarations are put in. -/
  scope : Option String
deriving DecidableEq

/-- What makes the definition of an alias invalid. -/
inductive AliasFault where
  | noProperties
  | blankProperty
  | scopeWithoutQuotes
  | quotedProperties
deriving DecidableEq, Repr

/-- The text for a fault. -/
def AliasFault.text : AliasFault → String
  | .noProperties => "at least one property is required"
  | .blankProperty => "property names cannot be empty"
  | .scopeWithoutQuotes => "scope is only supported on quoted aliases"
  | .quotedProperties => "quoted aliases take exactly one property"

/-- Why a document cannot be applied. -/
inductive ConfigError where
  /-- The text is no YAML, or the document does not have the shape of a configuration. -/
  | malformed
  /-- The definition of an alias is invalid. -/
  | invalidAlias (name : String) (fault : AliasFault)
deriving DecidableEq, Repr

/-- The text for an error. For a malformed text, a colon and the account of a YAML reader could
follow; this part is left out. -/
def ConfigError.text : ConfigError → String
  | .malformed => "invalid config"
  | .invalidAlias name fault => "invalid alias '" ++ name ++ "': " ++ fault.text

namespace AliasDefinition

/-- Adds the options of a definition to an alias, if it has any. -/
def withOptions (definition : AliasDefinition) (entry : Alias) : Alias :=
  if definition.options.isEmpty then entry else entry.withTable definition.options

/-- The alias of a definition, or what makes it invalid. -/
def compile (definition : AliasDefinition) (name : String) : Except AliasFault Alias :=
  if definition.properties.isEmpty then .error .noProperties
  else if definition.properties.any Text.isBlankText then .error .blankProperty
  else if definition.scope.isSome && !definition.quoted then .error .scopeWithoutQuotes
  else if definition.quoted then
    match definition.properties with
    | [property] => .ok (definition.withOptions (.quoted name property definition.scope))
    | _ => .error .quotedProperties
  else .ok (definition.withOptions (.properties name definition.properties))

/-- Reads a definition. -/
def decode (node : Yaml.Node) : Yaml.Decode AliasDefinition := do
  let fields ← Yaml.Decode.fields ["properties", "options", "quoted", "scope"] node
  let properties ← Yaml.Decode.field fields "properties" [] (Yaml.Decode.items Yaml.Decode.text)
  let options ← Yaml.Decode.field fields "options" [] (Yaml.Decode.table Yaml.Decode.text)
  let quoted ← Yaml.Decode.field fields "quoted" false Yaml.Decode.flag
  let scope ← Yaml.Decode.field fields "scope" none Yaml.Decode.optionalText
  return ⟨properties, Table.ofList options, quoted, scope⟩

end AliasDefinition

/-- A configuration document. -/
structure ConfigDocument where
  /-- The media aliases and their queries. -/
  media : Table String
  /-- The aliases and their definitions. -/
  aliases : Table AliasDefinition
deriving DecidableEq

namespace ConfigDocument

/-- The document that defines nothing. -/
def empty : ConfigDocument := ⟨Table.empty, Table.empty⟩

/-- Reads a document. -/
def decode (node : Yaml.Node) : Yaml.Decode ConfigDocument := do
  let fields ← Yaml.Decode.fields ["media", "aliases"] node
  let media ← Yaml.Decode.field fields "media" [] (Yaml.Decode.table Yaml.Decode.text)
  let aliases ← Yaml.Decode.field fields "aliases" [] (Yaml.Decode.table AliasDefinition.decode)
  return ⟨Table.ofList media, Table.ofList aliases⟩

/-- The document of a text. A blank text and a text without a document define nothing. -/
def parse? (text : String) : Option ConfigDocument :=
  if Text.isBlankText text then some empty
  else
    match Yaml.parse? text with
    | none => none
    | some none => some empty
    | some (some root) => Yaml.Decode.run? decode root

/-- The aliases of a document in order, or the first definition that is invalid. -/
def compile (document : ConfigDocument) : Except ConfigError (List Alias) :=
  document.aliases.entries.mapM fun (name, definition) =>
    (definition.compile name).mapError (.invalidAlias name)

end ConfigDocument

namespace Config

/-- Registers the media aliases and the aliases of a document. -/
def apply (config : Config) (document : ConfigDocument) : Except ConfigError Config :=
  match document.compile with
  | .error e => .error e
  | .ok entries =>
      .ok { config with
        media := config.media.insertAll document.media.entries
        aliases := config.aliases.registerAll entries }

/-- Applies the text of a document to a configuration. -/
def extend (config : Config) (text : String) : Except ConfigError Config :=
  match ConfigDocument.parse? text with
  | none => .error .malformed
  | some document => config.apply document

end Config

end StyleProps
