import StyleProps.Alias.Emitter
import StyleProps.Table

/-!
# Aliases

A short prop name, how it produces declarations, and the symbolic values that it knows. A value that
is symbolic is replaced by its literal value; a preset splits any other value at its commas; any
other alias passes it through.
-/

namespace StyleProps

/-- The definition of an alias. -/
structure Alias where
  /-- The prop name. -/
  name : String
  /-- How declarations are produced. -/
  emitter : Emitter
  /-- The symbolic values and their literal values. -/
  options : Option (Table String)
  /-- Whether a value is split at its commas. -/
  isPreset : Bool
deriving Inhabited

namespace Alias

/-- An alias without symbolic values that is no preset. -/
def ofEmitter (name : String) (emitter : Emitter) : Alias :=
  ⟨name, emitter, none, false⟩

/-- An alias of one property. -/
def property (name property : String) : Alias :=
  ofEmitter name (.properties [property])

/-- An alias of several properties that get the same value. -/
def properties (name : String) (properties : List String) : Alias :=
  ofEmitter name (.properties properties)

/-- An alias whose value is put in double quotes, in a scope if one is given. -/
def quoted (name property : String) (scope : Option String) : Alias :=
  ofEmitter name (.quoted property scope)

/-- A preset for a flexible box. -/
def flexPreset (name : String) (direction : Option String) (directionSlot : Bool) : Alias :=
  ⟨name, .flex direction directionSlot, none, true⟩

/-- Adds symbolic values; a later one replaces an earlier one of the same name. -/
def withOptions (entry : Alias) (pairs : List (String × String)) : Alias :=
  { entry with options := some ((entry.options.getD Table.empty).insertAll pairs) }

/-- Adds the symbolic values of a table. -/
def withTable (entry : Alias) (table : Table String) : Alias :=
  entry.withOptions table.entries

/-- Sets whether a value is split at its commas. -/
def withPreset (entry : Alias) (isPreset : Bool) : Alias :=
  { entry with isPreset }

/-- The literal value of a symbolic one. -/
def substitute? (entry : Alias) (raw : String) : Option String :=
  entry.options.bind (·.get? raw)

/-- What the emitter is given for a raw value. -/
def input (entry : Alias) (raw : String) : EmitInput :=
  match entry.substitute? raw with
  | some literal => .scalar literal
  | none => if entry.isPreset then .ofCommas raw else .scalar raw

/-- The declarations for a raw value. -/
def emit (entry : Alias) (raw : String) : Declarations :=
  entry.emitter.emit (entry.input raw)

/-- Whether two definitions agree, the order of symbolic values apart. -/
def sameDefinition (a b : Alias) : Bool :=
  a.name == b.name && a.emitter == b.emitter && a.isPreset == b.isPreset &&
    match a.options, b.options with
    | none, none => true
    | some options, some others => options.sameEntries (· == ·) others
    | _, _ => false

end Alias

/-- The registered aliases. -/
abbrev AliasTable := Table Alias

namespace AliasTable

/-- Registers an alias under its name. -/
def register (table : AliasTable) (entry : Alias) : AliasTable :=
  table.insert entry.name entry

/-- Registers aliases from left to right. -/
def registerAll (table : AliasTable) (entries : List Alias) : AliasTable :=
  entries.foldl register table

/-- The declarations for a raw value of an alias, or `none` if the alias is unknown. -/
def emit? (table : AliasTable) (name raw : String) : Option Declarations :=
  (table.get? name).map (·.emit raw)

end AliasTable

end StyleProps
