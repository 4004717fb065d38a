import StyleProps.Proofs.Registration

/-!
# Documents as overrides

Applying a document puts its definitions over those of a configuration: `extend_iff_overridden` says
that this succeeds exactly if all definitions are valid, and that the configuration it leads to is
the only one that is `Config.Overridden`. For one table, `Table.overrides_iff` says that what is
asked of the entries and of their order leaves no choice. The main result, `extend_overrides`, draws
from it that applying a document once more changes nothing, that applying it is registering its
entries one at a time, and that one that is refused leaves no entry behind, even in place.
-/

namespace StyleProps

/-! ## Tables -/

namespace Table

variable {α : Type} {before other after : Table α}

/-- Nothing is found exactly under the names that are not listed. -/
theorem get?_eq_none_iff {table : Table α} {name : String} :
    table.get? name = none ↔ name ∉ table.names :=
  Assoc.get?_eq_none_iff

/-- Tables with the same names in the same order and the same values are the same. -/
theorem ext_of_get? (hnames : before.names = after.names)
    (hget : ∀ name, before.get? name = after.get? name) : before = after :=
  ext (Assoc.ext_of_get? hnames before.nodup hget)

/-- Puts the entries of another table over those of a table. -/
def override (table other : Table α) : Table α :=
  table.insertAll other.entries

/-- Under a name, what is put over a table is found, or else what was there before. -/
theorem get?_override (table other : Table α) (name : String) :
    (table.override other).get? name = (other.get? name).or (table.get? name) := by
  have hlast : other.get? name = Assoc.get? name other.entries.reverse :=
    (Records.entries other).last name
  rw [hlast]
  exact Assoc.get?_insertAll name other.entries table.entries

/-- The names that are new follow those of the table that the others are put over. -/
theorem names_override (table other : Table α) :
    (table.override other).names =
      table.names ++ other.names.filter fun name => name ∉ table.names :=
  Assoc.keys_insertAll_of_nodup other.nodup table.entries

/-- Putting the same entries over a table once more changes nothing. -/
theorem override_override (table other : Table α) :
    (table.override other).override other = table.override other := by
  refine ext_of_get? ?_ fun name => ?_
  · -- The second time, no name is new.
    have hold : (other.names.filter fun name => name ∉ (table.override other).names) = [] := by
      refine List.filter_eq_nil_iff.mpr fun name hname => ?_
      by_cases hbefore : name ∈ table.names <;> simp [names_override, hname, hbefore]
    rw [names_override, hold, List.append_nil]
  · rw [get?_override, get?_override]
    cases other.get? name <;> rfl

/-- Whether a table is another one with entries put over it: these entries have the values that are
put there, all others the values from before, and names that are new follow the others. -/
structure Overrides (before other after : Table α) : Prop where
  own : ∀ name value, other.get? name = some value → after.get? name = some value
  others : ∀ name, name ∉ other.names → after.get? name = before.get? name
  names : after.names = before.names ++ other.names.filter fun name => name ∉ before.names

/-- Putting entries over a table is the only way to have them there with everything else kept. -/
theorem overrides_iff : Overrides before other after ↔ after = before.override other := by
  constructor
  · intro h
    refine ext_of_get? (h.names.trans (names_override before other).symm) fun name => ?_
    rw [get?_override]
    cases hother : other.get? name with
    | some value => exact h.own name value hother
    | none => exact h.others name (get?_eq_none_iff.mp hother)
  · rintro rfl
    refine ⟨fun name value hvalue => ?_, fun name hname => ?_, names_override before other⟩
    · rw [get?_override, hvalue, Option.some_or]
    · rw [get?_override, get?_eq_none_iff.mpr hname, Option.none_or]

end Table

/-! ## Documents -/

namespace ConfigDocument

/-- Whether aliases are those of a document: they have the names that it defines, in order, and each
is compiled from the definition of its name. -/
structure Compiles (document : ConfigDocument) (aliases : AliasTable) : Prop where
  names : aliases.names = document.aliases.names
  compiled : ∀ name definition, document.aliases.get? name = some definition →
    ∃ entry, definition.compile name = .ok entry ∧ aliases.get? name = some entry

section Compiled

variable {pairs : List (String × AliasDefinition)} {entries : List Alias}

/-- Aliases that are compiled one by one have the names of their definitions. -/
theorem keys_compiled
    (h : List.Forall₂ (fun pair entry => pair.2.compile pair.1 = .ok entry) pairs entries) :
    Assoc.keys (entries.map Alias.named) = Assoc.keys pairs := by
  induction h with
  | nil => rfl
  | cons hfirst _ ih =>
      rw [List.map_cons, Assoc.keys_cons, Assoc.keys_cons, ih, Alias.named,
        AliasDefinition.name_of_compile hfirst]

/-- Among aliases that are compiled one by one, that of a definition is found under its name. -/
theorem get?_compiled
    (h : List.Forall₂ (fun pair entry => pair.2.compile pair.1 = .ok entry) pairs entries)
    {name : String} {definition : AliasDefinition}
    (hget : Assoc.get? name pairs = some definition) :
    ∃ entry, definition.compile name = .ok entry ∧
      Assoc.get? name (entries.map Alias.named) = some entry := by
  induction h with
  | nil => cases hget
  | @cons pair first _ _ hfirst _ ih =>
      obtain ⟨k, other⟩ := pair
      have hname : first.name = k := AliasDefinition.name_of_compile hfirst
      by_cases hk : k = name
      · subst hk
        simp only [Assoc.get?, if_true, Option.some.injEq] at hget
        subst hget
        exact ⟨first, hfirst, by simp [Alias.named, Assoc.get?, hname]⟩
      · simp only [Assoc.get?, hk, if_false] at hget
        obtain ⟨entry, hentry, hfound⟩ := ih hget
        exact ⟨entry, hentry, by simpa [Alias.named, Assoc.get?, hname, hk] using hfound⟩

end Compiled

variable {document : ConfigDocument} {aliases : AliasTable} {entries : List Alias}

/-- A document determines its aliases. -/
theorem Compiles.unique {others : AliasTable} (h : document.Compiles aliases)
    (hothers : document.Compiles others) : aliases = others := by
  refine Table.ext_of_get? (h.names.trans hothers.names.symm) fun name => ?_
  cases hdefinition : document.aliases.get? name with
  | some definition =>
      obtain ⟨entry, hentry, hfound⟩ := h.compiled name definition hdefinition
      obtain ⟨other, hother, hfound'⟩ := hothers.compiled name definition hdefinition
      rw [hentry] at hother
      rw [hfound, hfound', Except.ok.inj hother]
  | none =>
      have habsent := Table.get?_eq_none_iff.mp hdefinition
      rw [Table.get?_eq_none_iff.mpr (h.names.symm ▸ habsent),
        Table.get?_eq_none_iff.mpr (hothers.names.symm ▸ habsent)]

/-- The aliases that are compiled from a document are its aliases. -/
theorem exists_compiles (h : document.compile = .ok entries) :
    ∃ aliases : AliasTable, aliases.entries = entries.map Alias.named ∧
      document.Compiles aliases := by
  have hcompiled : List.Forall₂ (fun pair entry => pair.2.compile pair.1 = .ok entry)
      document.aliases.entries entries :=
    (mapM_eq_ok_iff.mp h).imp fun _ _ => mapError_eq_ok_iff.mp
  have hkeys := keys_compiled hcompiled
  exact ⟨⟨entries.map Alias.named, hkeys ▸ document.aliases.nodup⟩, rfl, hkeys,
    fun name definition hget => get?_compiled hcompiled hget⟩

/-- A document has aliases exactly if it can be compiled, and they are those that come of it. -/
theorem compiles_iff :
    document.Compiles aliases ↔
      ∃ entries, document.compile = .ok entries ∧ aliases.entries = entries.map Alias.named := by
  constructor
  · intro h
    cases hcompile : document.compile with
    | ok entries =>
        obtain ⟨others, hentries, hothers⟩ := exists_compiles hcompile
        exact ⟨entries, rfl, h.unique hothers ▸ hentries⟩
    | error e =>
        obtain ⟨front, ⟨name, definition⟩, back, hsplit, _, hfails⟩ := mapM_eq_error_iff.mp hcompile
        obtain ⟨fault, hfault, _⟩ := mapError_eq_error_iff.mp hfails
        have hmem : (name, definition) ∈ document.aliases.entries := by simp [hsplit]
        obtain ⟨entry, hentry, _⟩ :=
          h.compiled name definition (Assoc.get?_of_mem document.aliases.nodup hmem)
        rw [hfault] at hentry
        cases hentry
  · rintro ⟨entries, hcompile, hentries⟩
    obtain ⟨others, hothers, hcompiles⟩ := exists_compiles hcompile
    rwa [Table.ext (hentries.trans hothers.symm)]

end ConfigDocument

/-! ## Configurations -/

namespace Config

/-- Whether a configuration is another one with the definitions of a document put over it: its media
aliases and its aliases, which all are valid, over those of the configuration, whose selectors are
kept. -/
structure Overridden (config : Config) (document : ConfigDocument) (next : Config) : Prop where
  media : config.media.Overrides document.media next.media
  aliases : ∃ aliases, document.Compiles aliases ∧ config.aliases.Overrides aliases next.aliases
  tokens : next.tokens = config.tokens
  scopes : next.scopes = config.scopes

/-- Puts media aliases and aliases over those of a configuration. -/
def override (config : Config) (media : MediaTable) (aliases : AliasTable) : Config :=
  { config with media := config.media.override media, aliases := config.aliases.override aliases }

variable {config next : Config} {document : ConfigDocument} {text : String}

/-- There is one way to put the definitions of a document over a configuration, if all of them are
valid. -/
theorem overridden_iff :
    config.Overridden document next ↔
      ∃ aliases, document.Compiles aliases ∧ next = config.override document.media aliases := by
  constructor
  · intro h
    obtain ⟨aliases, hcompiles, haliases⟩ := h.aliases
    refine ⟨aliases, hcompiles, ?_⟩
    rw [override, ← Table.overrides_iff.mp h.media, ← Table.overrides_iff.mp haliases, ← h.tokens,
      ← h.scopes]
  · rintro ⟨aliases, hcompiles, rfl⟩
    exact ⟨Table.overrides_iff.mpr rfl, ⟨aliases, hcompiles, Table.overrides_iff.mpr rfl⟩, rfl, rfl⟩

/-- Why a text is refused, if it is. -/
def refusal? (text : String) : Option ConfigError :=
  match ConfigDocument.parse? text with
  | none => some .malformed
  | some document =>
      match document.compile with
      | .error error => some error
      | .ok _ => none

/-- Why a text is refused does not depend on the configuration that it is applied to. -/
theorem extend_eq_error_iff {error : ConfigError} :
    config.extend text = .error error ↔ refusal? text = some error := by
  unfold extend refusal? apply
  cases ConfigDocument.parse? text with
  | none => simp
  | some document => cases h : document.compile <;> simp [h]

/-- Whether a text can be applied does not depend on the configuration. -/
theorem exists_extend_iff : (∃ next, config.extend text = .ok next) ↔ refusal? text = none := by
  unfold extend refusal? apply
  cases ConfigDocument.parse? text with
  | none => simp
  | some document => cases h : document.compile <;> simp [h]

/-- Applying a document puts its definitions over those of the configuration. -/
theorem apply_iff_overridden :
    config.apply document = .ok next ↔ config.Overridden document next := by
  rw [overridden_iff]
  unfold apply
  cases hcompile : document.compile with
  | error e =>
      simp [ConfigDocument.compiles_iff, hcompile]
  | ok entries =>
      obtain ⟨aliases, hentries, hcompiles⟩ := ConfigDocument.exists_compiles hcompile
      have happlied : { config with
          media := config.media.insertAll document.media.entries
          aliases := config.aliases.registerAll entries } =
            config.override document.media aliases := by
        rw [AliasTable.registerAll_eq_insertAll, ← hentries]
        rfl
      simp only [happlied, Except.ok.injEq]
      constructor
      · rintro rfl
        exact ⟨aliases, hcompiles, rfl⟩
      · rintro ⟨others, hothers, rfl⟩
        rw [hcompiles.unique hothers]

/-- Applying the text of a document succeeds exactly if it can be read and all definitions are
valid, and then puts the definitions over those of the configuration. -/
theorem extend_iff_overridden :
    config.extend text = .ok next ↔
      ∃ document, ConfigDocument.parse? text = some document ∧ config.Overridden document next := by
  unfold extend
  cases ConfigDocument.parse? text with
  | none => simp
  | some document => simp [apply_iff_overridden]

/-- After a text was applied, applying it once more changes nothing. -/
theorem extend_extend (h : config.extend text = .ok next) : next.extend text = .ok next := by
  obtain ⟨document, hdocument, hoverridden⟩ := extend_iff_overridden.mp h
  obtain ⟨aliases, hcompiles, rfl⟩ := overridden_iff.mp hoverridden
  refine extend_iff_overridden.mpr
    ⟨document, hdocument, overridden_iff.mpr ⟨aliases, hcompiles, ?_⟩⟩
  simp only [override, Table.override_override]

/-! ## One entry at a time -/

/-- The steps that register the entries of the text of a document one at a time, first its media
aliases and then its aliases, each in order. A text that is refused has none. -/
def entrySteps (text : String) : List Step :=
  match ConfigDocument.parse? text with
  | none => []
  | some document =>
      match document.compile with
      | .error _ => []
      | .ok entries =>
          (document.media.entries.map fun (name, query) => .withMedia name query) ++
            entries.map .withAlias

/-- Media aliases can be registered one at a time or all at once. -/
theorem foldl_withMedia (config : Config) (pairs : List (String × String)) :
    pairs.foldl (fun config pair => config.withMedia pair.1 pair.2) config =
      { config with media := config.media.insertAll pairs } := by
  induction pairs generalizing config with
  | nil => rfl
  | cons pair rest ih => exact ih (config.withMedia pair.1 pair.2)

/-- Aliases can be registered one at a time or all at once. -/
theorem foldl_withAlias (config : Config) (entries : List Alias) :
    entries.foldl withAlias config =
      { config with aliases := config.aliases.registerAll entries } := by
  induction entries generalizing config with
  | nil => rfl
  | cons entry rest ih => exact ih (config.withAlias entry)

/-- A history goes on where its first part leads to. -/
theorem afterAll_append (config : Config) (first second : List Step) :
    config.afterAll (first ++ second) = (config.afterAll first).afterAll second :=
  List.foldl_append

/-- Applying a text is registering its entries one at a time. -/
theorem after_extend_eq_afterAll (config : Config) (text : String) :
    config.after (.extend text) = config.afterAll (entrySteps text) := by
  simp only [after, extend, entrySteps]
  cases ConfigDocument.parse? text with
  | none => rfl
  | some document =>
      simp only [apply]
      cases document.compile with
      | error e => rfl
      | ok entries =>
          simp only [afterAll, List.foldl_append, List.foldl_map, after, foldl_withMedia,
            foldl_withAlias]

/-! ## In place -/

/-- Applies the text of a document to a configuration in place: reads it, compiles all definitions,
and registers the entries one after another. -/
def extendInPlace (text : String) : ExceptT ConfigError (StateM Config) Unit := do
  let some document := ConfigDocument.parse? text | throw .malformed
  let entries ← MonadExcept.ofExcept document.compile
  document.media.entries.forM fun (name, query) => modify (·.withMedia name query)
  entries.forM fun entry => modify (·.withAlias entry)

/-- If the first part succeeds, the second one starts in the state that the first one leaves. -/
theorem run_bind_of_ok {α β ε σ : Type} {first : ExceptT ε (StateM σ) α}
    (second : α → ExceptT ε (StateM σ) β) {state middle : σ} {x : α}
    (h : first.run state = (.ok x, middle)) :
    (first >>= second).run state = (second x).run middle := by
  have hfirst : StateT.run first.run state = pure (.ok x, middle) := h
  change StateT.run (first >>= second).run state = StateT.run (second x).run middle
  rw [ExceptT.run_bind, StateT.run_bind, hfirst, pure_bind]

/-- Changes that are made one after another and cannot fail end with all of them made. -/
theorem run_forM_modify {α ε σ : Type} (change : α → σ → σ) (xs : List α) (state : σ) :
    ((xs.forM fun x => modify (change x) : ExceptT ε (StateM σ) PUnit).run state) =
      (.ok (), xs.foldl (fun state x => change x state) state) := by
  induction xs generalizing state with
  | nil => rfl
  | cons x rest ih => exact ih (change x state)

/-- In place, a text that is refused leaves the configuration as it was, and any other one leads to
the configuration that it extends to. -/
theorem run_extendInPlace (config : Config) (text : String) :
    (extendInPlace text).run config =
      match config.extend text with
      | .ok next => (.ok (), next)
      | .error error => (.error error, config) := by
  simp only [extendInPlace, extend]
  cases ConfigDocument.parse? text with
  | none => rfl
  | some document =>
      simp only [apply]
      cases document.compile with
      | error e => rfl
      | ok entries =>
          refine (run_bind_of_ok _ (run_forM_modify _ _ _)).trans ?_
          simp only [run_forM_modify, foldl_withMedia, foldl_withAlias]

/-- Applying the text of a document is an override. It succeeds exactly if the text can be read and
all definitions are valid, and then leads to the only configuration in which each media alias and
each alias of the document has the definition that it has there, every other name keeps its own,
names that were there keep their positions, new names follow in the order of the document, and the
selectors are the same. Applying the text once more changes nothing. Applying two texts is
registering the entries of the first one and then those of the second one, one at a time. In place,
a text that is refused leaves all four tables as they were. -/
theorem extend_overrides (config : Config) (text : String) :
    (∀ next, config.extend text = .ok next ↔
      ∃ document, ConfigDocument.parse? text = some document ∧ config.Overridden document next) ∧
    (∀ next, config.extend text = .ok next → next.extend text = .ok next) ∧
    (∀ other, (config.after (.extend text)).after (.extend other) =
      config.afterAll (entrySteps text ++ entrySteps other)) ∧
    (∀ next, config.extend text = .ok next → (extendInPlace text).run config = (.ok (), next)) ∧
    ∀ error, config.extend text = .error error →
      (extendInPlace text).run config = (.error error, config) := by
  refine ⟨fun _ => extend_iff_overridden, fun _ => extend_extend, fun other => ?twoTexts,
    fun next hnext => ?applied, fun error herror => ?refused⟩
  case twoTexts => rw [after_extend_eq_afterAll, after_extend_eq_afterAll, afterAll_append]
  case applied => rw [run_extendInPlace, hnext]
  case refused => rw [run_extendInPlace, herror]

/-- A media alias and an alias that are built in get other definitions, and one media alias is new.
A second document defines the alias again, and a third one is refused after its media aliases were
read. -/
theorem extend_overrides_tv :
    let text := "media: {md: wide, tv: far}\naliases: {p: {properties: [pad]}}"
    let other := "aliases: {p: {properties: [fill]}}"
    let refused := "media: {tv: near}\naliases: {p: {}}"
    ∃ next last, Config.builtin.extend text = .ok next ∧ next.extend other = .ok last ∧
      next.media.names = MediaTable.builtin.names ++ ["tv"] ∧
      next.media.get? "md" = some "wide" ∧
      next.media.get? "sm" = Config.builtin.media.get? "sm" ∧
      next.tokens = Config.builtin.tokens ∧ next.extend text = .ok next ∧
      last = Config.builtin.afterAll (entrySteps text ++ entrySteps other) ∧
      (extendInPlace refused).run last = (.error (.invalidAlias "p" .noProperties), last) := by
  intro text other refused
  obtain ⟨next, hnext⟩ : ∃ next, Config.builtin.extend text = .ok next :=
    exists_extend_iff.mpr (by decide +kernel)
  obtain ⟨last, hlast⟩ : ∃ last, next.extend other = .ok last :=
    exists_extend_iff.mpr (by decide +kernel)
  have hrefused : last.extend refused = .error (.invalidAlias "p" .noProperties) :=
    extend_eq_error_iff.mpr (by decide +kernel)
  obtain ⟨happlied, hagain, htwo, _, _⟩ := extend_overrides Config.builtin text
  obtain ⟨_, _, _, _, hkept⟩ := extend_overrides last refused
  obtain ⟨document, hdocument, hoverridden⟩ := (happlied next).mp hnext
  have hmedia : (ConfigDocument.parse? text).map (·.media.entries) =
      some [("md", "wide"), ("tv", "far")] := by decide +kernel
  rw [hdocument, Option.map_some, Option.some.injEq] at hmedia
  have hnames : document.media.names = ["md", "tv"] := congrArg Assoc.keys hmedia
  refine ⟨next, last, hnext, hlast, ?names, ?own, ?others, hoverridden.tokens, hagain next hnext,
    ?two, hkept _ hrefused⟩
  case names =>
    rw [hoverridden.media.names, hnames, builtin_media]
    decide +kernel
  case own =>
    refine hoverridden.media.own "md" "wide" ?_
    rw [Table.get?, hmedia]
    rfl
  case others =>
    refine hoverridden.media.others "sm" ?_
    rw [hnames]
    decide
  case two =>
    rw [← htwo other]
    simp only [after, hnext, hlast]

end Config

end StyleProps
