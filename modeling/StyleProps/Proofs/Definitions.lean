import Mathlib.Data.List.Induction
import StyleProps.Proofs.Override

/-!
# Definitions of aliases

When a document is refused, and what the aliases of one that is not refused emit. A definition is
checked for four faults in the order `AliasFault.order` and refused with the first that it has
(`compile_eq_error_iff`), and a document with the first of its definitions that has one. An alias of
any other definition puts out what `AliasDefinition.Emits` asks for (`emits_of_compile`). The main
result, `extend_definitions`, says both of applying the text of a document.
-/

namespace StyleProps

/-! ## Declarations of one text -/

/-- Storing what a name is mapped to keeps a list that is mapped like this, with the name at the end
if it is a new one. -/
theorem Assoc.insert_map {α : Type} (f : String → α) (key : String) (names : List String) :
    Assoc.insert key (f key) (names.map fun name => (name, f name)) =
      (if key ∈ names then names else names ++ [key]).map fun name => (name, f name) := by
  induction names with
  | nil => rfl
  | cons name rest ih =>
      by_cases hname : name = key
      · simp [Assoc.insert, hname]
      · by_cases hrest : key ∈ rest <;> simp [Assoc.insert, hname, Ne.symm hname, hrest, ih]

/-- Storing one text under names stores it once under each of them, in the order in which they come
first. -/
theorem Declarations.ofTexts_const (names : List String) (text : String) :
    Declarations.ofTexts (names.map fun name => (name, text)) =
      names.eraseDups.map fun name => (name, .text text) := by
  -- The last text is stored last, so the induction is from the end of the list.
  induction names using List.reverseRecOn with
  | nil => rfl
  | append_singleton front last ih =>
      have hstep : Declarations.ofTexts ((front ++ [last]).map fun name => (name, text)) =
          (Declarations.ofTexts (front.map fun name => (name, text))).insert last (.text text) := by
        simp [Declarations.ofTexts]
      rw [hstep, ih, Declarations.insert, Assoc.insert_map fun _ => Value.text text,
        List.eraseDups_append]
      by_cases hlast : last ∈ front <;> simp [hlast, List.removeAll, List.eraseDups_cons]

/-! ## Faults -/

/-- The faults in the order in which a definition is checked for them. -/
def AliasFault.order : List AliasFault :=
  [.noProperties, .blankProperty, .scopeWithoutQuotes, .quotedProperties]

/-- A definition is checked for every fault. -/
theorem AliasFault.mem_order (fault : AliasFault) : fault ∈ order := by
  cases fault <;> decide

namespace AliasDefinition

variable {definition : AliasDefinition} {name : String}

/-- Whether a definition has a fault. -/
def HasFault (definition : AliasDefinition) : AliasFault → Prop
  | .noProperties => definition.properties = []
  | .blankProperty =>
      ∃ property ∈ definition.properties, ∀ c ∈ property.toList, Text.isBlank c = true
  | .scopeWithoutQuotes => definition.scope ≠ none ∧ definition.quoted = false
  | .quotedProperties => definition.quoted = true ∧ definition.properties.length ≠ 1

/-- A definition has a blank property exactly if one of its properties is a blank text. -/
theorem hasFault_blankProperty_iff :
    definition.HasFault .blankProperty ↔ definition.properties.any Text.isBlankText = true := by
  simp [HasFault, Text.isBlankText]

instance (definition : AliasDefinition) : DecidablePred definition.HasFault
  | .noProperties => inferInstanceAs (Decidable (definition.properties = []))
  | .blankProperty => decidable_of_iff _ hasFault_blankProperty_iff.symm
  | .scopeWithoutQuotes => inferInstanceAs
      (Decidable (definition.scope ≠ none ∧ definition.quoted = false))
  | .quotedProperties => inferInstanceAs
      (Decidable (definition.quoted = true ∧ definition.properties.length ≠ 1))

/-- The first fault of a definition, in the order in which it is checked. -/
def firstFault? (definition : AliasDefinition) : Option AliasFault :=
  AliasFault.order.find? (definition.HasFault ·)

/-- A definition has no fault exactly if checking it for all of them finds none. -/
theorem firstFault?_eq_none_iff :
    definition.firstFault? = none ↔ ∀ fault, ¬ definition.HasFault fault := by
  simp [firstFault?, List.find?_eq_none, AliasFault.mem_order]

/-- The first fault of a definition is a fault that it has. -/
theorem hasFault_of_firstFault? {fault : AliasFault} (h : definition.firstFault? = some fault) :
    definition.HasFault fault := by
  have hfound := List.find?_some h
  simpa using hfound

/-- A definition is refused exactly with its first fault. -/
theorem compile_eq_error_iff {fault : AliasFault} :
    definition.compile name = .error fault ↔ definition.firstFault? = some fault := by
  have hnone : definition.properties.isEmpty = true ↔ definition.HasFault .noProperties :=
    List.isEmpty_iff
  have hscope : (definition.scope.isSome && !definition.quoted) = true ↔
      definition.HasFault .scopeWithoutQuotes := by
    simp [HasFault, Option.isSome_iff_ne_none]
  simp only [compile, hnone, ← hasFault_blankProperty_iff, hscope, firstFault?, AliasFault.order,
    List.find?_cons, List.find?_nil]
  by_cases h₁ : definition.HasFault .noProperties
  · simp [h₁]
  by_cases h₂ : definition.HasFault .blankProperty
  · simp [h₁, h₂]
  by_cases h₃ : definition.HasFault .scopeWithoutQuotes
  · simp [h₁, h₂, h₃]
  simp only [h₁, h₂, h₃, if_false, decide_false]
  -- The last check is part of how the alias is made.
  cases hquoted : definition.quoted with
  | false => simp [HasFault, hquoted]
  | true =>
      rcases hproperties : definition.properties with _ | ⟨property, _ | ⟨other, rest⟩⟩ <;>
        simp [HasFault, hquoted, hproperties]

/-- A definition is valid exactly if it has no fault. -/
theorem exists_compile_iff :
    (∃ entry, definition.compile name = .ok entry) ↔ ∀ fault, ¬ definition.HasFault fault := by
  rw [← firstFault?_eq_none_iff]
  cases hcompile : definition.compile name with
  | ok entry =>
      simp only [Except.ok.injEq, exists_eq', true_iff]
      refine Option.eq_none_iff_forall_ne_some.mpr fun fault hfault => ?_
      rw [compile_eq_error_iff.mpr hfault] at hcompile
      cases hcompile
  | error fault => simp [compile_eq_error_iff.mp hcompile]

/-- What stands for a raw value: its option if it has one, and else the value itself. -/
def value (definition : AliasDefinition) (raw : String) : String :=
  (definition.options.get? raw).getD raw

/-- Whether declarations are what a definition says of a raw value. Without quotes they are its
properties, each once and in the order of the list, with what stands for the value; with quotes they
are its one property with this in double quotes, in the scope if there is one. -/
inductive Emits (definition : AliasDefinition) (raw : String) : Declarations → Prop
  | properties (hquoted : definition.quoted = false) :
      definition.Emits raw <| definition.properties.eraseDups.map fun property =>
        (property, .text (definition.value raw))
  | quoted {property : String} (hquoted : definition.quoted = true)
      (hproperty : definition.properties = [property]) (hscope : definition.scope = none) :
      definition.Emits raw [(property, .text ("\"" ++ definition.value raw ++ "\""))]
  | inScope {property scope : String} (hquoted : definition.quoted = true)
      (hproperty : definition.properties = [property]) (hscope : definition.scope = some scope) :
      definition.Emits raw
        [(scope, .nested [(property, .text ("\"" ++ definition.value raw ++ "\""))])]

/-- An alias with the options of a definition emits what stands for the value, as one text. -/
theorem emit_withOptions (definition : AliasDefinition) (name : String) (emitter : Emitter)
    (raw : String) :
    (definition.withOptions (.ofEmitter name emitter)).emit raw =
      emitter.emit (.scalar (definition.value raw)) := by
  unfold withOptions
  split
  · next hempty =>
      have hnone : definition.options.get? raw = none := by
        rw [Table.get?, List.isEmpty_iff.mp hempty]
        rfl
      rw [value, hnone]
      rfl
  · have hsubstitute :
        ((Alias.ofEmitter name emitter).withTable definition.options).substitute? raw =
          definition.options.get? raw :=
      congrArg (Table.get? · raw) (Table.ofList_entries definition.options)
    rw [Alias.emit, Alias.input, hsubstitute, value]
    cases definition.options.get? raw <;> rfl

/-- The alias of a definition emits what the definition says. -/
theorem emits_of_compile {entry : Alias} (h : definition.compile name = .ok entry) (raw : String) :
    definition.Emits raw (entry.emit raw) := by
  rcases (compile_cases h).2 with ⟨property, hquoted, hproperty, rfl⟩ | ⟨hquoted, _, _, rfl⟩
  · rw [Alias.quoted, emit_withOptions]
    cases hscope : definition.scope with
    | none => exact .quoted hquoted hproperty hscope
    | some scope => exact .inScope hquoted hproperty hscope
  · rw [Alias.properties, emit_withOptions]
    simp only [Emitter.emit, EmitInput.joined, Declarations.ofTexts_const]
    exact .properties hquoted

end AliasDefinition

/-! ## Documents -/

namespace ConfigDocument

variable {document : ConfigDocument} {error : ConfigError}

/-- Whether the first definition of a document that has a fault is that of a given name, and has a
given fault as its first. -/
def FirstFaulty (document : ConfigDocument) (name : String) (fault : AliasFault) : Prop :=
  ∃ front definition back, document.aliases.entries = front ++ (name, definition) :: back ∧
    (∀ pair ∈ front, ∀ other, ¬ pair.2.HasFault other) ∧ definition.firstFault? = some fault

/-- A document is refused exactly with the first fault of its first definition that has one. -/
theorem compile_eq_error_iff :
    document.compile = .error error ↔
      ∃ name fault, error = .invalidAlias name fault ∧ document.FirstFaulty name fault := by
  have hfront : ∀ pair : String × AliasDefinition,
      (∃ entry, (pair.2.compile pair.1).mapError (ConfigError.invalidAlias pair.1) = .ok entry) ↔
        ∀ fault, ¬ pair.2.HasFault fault := by
    intro pair
    simp only [mapError_eq_ok_iff, AliasDefinition.exists_compile_iff]
  simp only [compile, mapM_eq_error_iff, FailsFirst, hfront, mapError_eq_error_iff,
    AliasDefinition.compile_eq_error_iff]
  constructor
  · rintro ⟨front, ⟨name, definition⟩, back, hsplit, hvalid, fault, hfault, rfl⟩
    exact ⟨name, fault, rfl, front, definition, back, hsplit, hvalid, hfault⟩
  · rintro ⟨name, fault, rfl, front, definition, back, hsplit, hvalid, hfault⟩
    exact ⟨front, (name, definition), back, hsplit, hvalid, fault, hfault, rfl⟩

/-- The first definition that has a fault is a definition that has this fault. -/
theorem FirstFaulty.exists_hasFault {name : String} {fault : AliasFault}
    (h : document.FirstFaulty name fault) :
    ∃ definition, document.aliases.get? name = some definition ∧ definition.HasFault fault := by
  obtain ⟨front, definition, back, hsplit, _, hfault⟩ := h
  have hmem : (name, definition) ∈ document.aliases.entries := by simp [hsplit]
  exact ⟨definition, Assoc.get?_of_mem document.aliases.nodup hmem,
    AliasDefinition.hasFault_of_firstFault? hfault⟩

/-- A document is valid exactly if all of its definitions are. -/
theorem exists_compile_iff :
    (∃ entries, document.compile = .ok entries) ↔
      ∀ name definition, document.aliases.get? name = some definition →
        ∀ fault, ¬ definition.HasFault fault := by
  constructor
  · rintro ⟨entries, hcompile⟩ name definition hdefinition
    obtain ⟨aliases, _, hcompiles⟩ := exists_compiles hcompile
    obtain ⟨entry, hentry, _⟩ := hcompiles.compiled name definition hdefinition
    exact AliasDefinition.exists_compile_iff.mp ⟨entry, hentry⟩
  · intro hvalid
    cases hcompile : document.compile with
    | ok entries => exact ⟨entries, rfl⟩
    | error error =>
        obtain ⟨name, fault, _, hfirst⟩ := compile_eq_error_iff.mp hcompile
        obtain ⟨definition, hdefinition, hfault⟩ := hfirst.exists_hasFault
        exact absurd hfault (hvalid name definition hdefinition fault)

end ConfigDocument

namespace Config

variable {config next : Config} {document : ConfigDocument} {text : String}

/-- The text of a document is refused exactly as the document is. -/
theorem extend_eq_error_iff_compile (hdocument : ConfigDocument.parse? text = some document)
    {error : ConfigError} :
    config.extend text = .error error ↔ document.compile = .error error := by
  rw [extend_eq_error_iff, refusal?, hdocument]
  cases hcompile : document.compile <;> simp [hcompile]

/-- After the text of a document was applied, its aliases emit what their definitions say. -/
theorem emits_of_extend (hdocument : ConfigDocument.parse? text = some document)
    (h : config.extend text = .ok next) {name : String} {definition : AliasDefinition}
    (hdefinition : document.aliases.get? name = some definition) (raw : String) :
    ∃ declarations, next.aliases.emit? name raw = some declarations ∧
      definition.Emits raw declarations := by
  obtain ⟨_, hparsed, hoverridden⟩ := extend_iff_overridden.mp h
  obtain rfl := Option.some.inj (hdocument.symm.trans hparsed)
  obtain ⟨aliases, hcompiles, haliases⟩ := hoverridden.aliases
  obtain ⟨entry, hentry, hfound⟩ := hcompiles.compiled name definition hdefinition
  refine ⟨entry.emit raw, ?_, AliasDefinition.emits_of_compile hentry raw⟩
  rw [AliasTable.emit?, haliases.own name entry hfound, Option.map_some]

/-- Applying the text of a document is refused exactly if a definition of the document has a fault,
and then names the first definition that has one and the first fault of this definition. If it is
not refused, every alias of the document emits what its definition says, for every raw value. -/
theorem extend_definitions (config : Config) {text : String} {document : ConfigDocument}
    (hdocument : ConfigDocument.parse? text = some document) :
    ((∃ name fault, config.extend text = .error (.invalidAlias name fault)) ↔
      ∃ name definition fault, document.aliases.get? name = some definition ∧
        definition.HasFault fault) ∧
    (∀ error, config.extend text = .error error ↔
      ∃ name fault, error = .invalidAlias name fault ∧ document.FirstFaulty name fault) ∧
    ∀ next, config.extend text = .ok next →
      ∀ name definition, document.aliases.get? name = some definition →
        ∀ raw, ∃ declarations, next.aliases.emit? name raw = some declarations ∧
          definition.Emits raw declarations := by
  have hrefused : ∀ error, config.extend text = .error error ↔
      ∃ name fault, error = .invalidAlias name fault ∧ document.FirstFaulty name fault := fun _ =>
    (extend_eq_error_iff_compile hdocument).trans ConfigDocument.compile_eq_error_iff
  refine ⟨⟨?faulty, ?fails⟩, hrefused, fun next hnext name definition hdefinition raw =>
    emits_of_extend hdocument hnext hdefinition raw⟩
  case faulty =>
    rintro ⟨_, _, herror⟩
    obtain ⟨name, fault, _, hfirst⟩ := (hrefused _).mp herror
    obtain ⟨definition, hdefinition, hfault⟩ := hfirst.exists_hasFault
    exact ⟨name, definition, fault, hdefinition, hfault⟩
  case fails =>
    rintro ⟨name, definition, fault, hdefinition, hfault⟩
    cases hcompile : document.compile with
    | ok entries =>
        have hvalid := ConfigDocument.exists_compile_iff.mp ⟨entries, hcompile⟩
        exact absurd hfault (hvalid name definition hdefinition fault)
    | error error =>
        have herror : config.extend text = .error error :=
          (extend_eq_error_iff_compile hdocument).mpr hcompile
        obtain ⟨other, first, rfl, _⟩ := (hrefused error).mp herror
        exact ⟨other, first, herror⟩

/-- An alias that lists a property twice and a quoted one in a scope, with an option, emit what they
are asked for. A document whose first alias has a blank property and a scope without quotes is
refused for the blank property. -/
theorem extend_definitions_scoped :
    let text := "aliases:\n b:\n  properties: [x, y, x]\n" ++
      " q:\n  properties: [z]\n  quoted: true\n  scope: s\n  options:\n   m: n"
    let refused := "aliases:\n b:\n  properties: [\"\"]\n  scope: s"
    ∃ next, Config.empty.extend text = .ok next ∧
      next.aliases.emit? "b" "1,2" = some [("x", .text "1,2"), ("y", .text "1,2")] ∧
      next.aliases.emit? "q" "m" = some [("s", .nested [("z", .text "\"n\"")])] ∧
      next.extend refused = .error (.invalidAlias "b" .blankProperty) := by
  intro text refused
  let both : ConfigDocument := ⟨.empty, .ofList [("b", ⟨["x", "y", "x"], .empty, false, none⟩),
    ("q", ⟨["z"], .ofList [("m", "n")], true, some "s"⟩)]⟩
  let blank : ConfigDocument := ⟨.empty, .ofList [("b", ⟨[""], .empty, false, some "s"⟩)]⟩
  have hboth : ConfigDocument.parse? text = some both := by decide +kernel
  have hblank : ConfigDocument.parse? refused = some blank := by decide +kernel
  obtain ⟨next, hnext⟩ : ∃ next, Config.empty.extend text = .ok next := by
    rw [extend, hboth]
    exact ⟨_, rfl⟩
  obtain ⟨_, _, hemits⟩ := extend_definitions Config.empty hboth
  obtain ⟨_, hrefused, _⟩ := extend_definitions next hblank
  refine ⟨next, hnext, ?twice, ?nested, (hrefused _).mpr ⟨"b", .blankProperty, rfl, ?first⟩⟩
  case twice =>
    obtain ⟨declarations, hemit, hsays⟩ := hemits next hnext "b" _ rfl "1,2"
    cases hsays with
    | properties => exact hemit
    | quoted hquoted | inScope hquoted => cases hquoted
  case nested =>
    obtain ⟨declarations, hemit, hsays⟩ := hemits next hnext "q" _ rfl "m"
    cases hsays with
    | properties hquoted => cases hquoted
    | quoted _ _ hscope => cases hscope
    | inScope _ hproperty hscope =>
        cases hproperty
        cases hscope
        exact hemit
  case first => exact ⟨[], _, [], rfl, List.forall_mem_nil _, by decide⟩

end Config

end StyleProps
