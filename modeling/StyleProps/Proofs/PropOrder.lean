import StyleProps.Proofs.Builtin
import StyleProps.Proofs.Reordering
import StyleProps.Proofs.SingleProp

/-!
# The order of props

When the order of props matters. The main result, `reordering_resolve_of_keepsConflicts`, says that
in the built-in configuration props can be put into any order that keeps any two aliases in place
that by themselves resolve to texts at a common path, and likewise any two selectors: they resolve
to the same declarations but for the order of entries, and to the same diagnostics in some order.
The text at a path is that of the last prop with a text there, and these props keep their order
(`findSome?_reverse_eq_of_perm`).
-/

namespace StyleProps

/-! ## Lists in two orders -/

section Lists

variable {α β : Type} {xs ys : List α}

/-- Two elements of a list without repetitions stand in one order only. -/
theorem not_sublist_swap (h : xs.Nodup) {x y : α} (hxy : [x, y].Sublist xs) :
    ¬ [y, x].Sublist xs := by
  induction xs with
  | nil => cases hxy
  | cons first rest ih =>
      obtain ⟨hfirst, hrest⟩ := List.nodup_cons.mp h
      intro hyx
      rcases List.sublist_cons_iff.mp hxy with hinner | ⟨_, heq, hafter⟩
      · rcases List.sublist_cons_iff.mp hyx with hswapped | ⟨_, heq, _⟩
        · exact ih hrest hinner hswapped
        · -- The first element is `y`, which stands in the rest too.
          obtain ⟨rfl, _⟩ := List.cons.inj heq
          have hmem : y ∈ rest := hinner.subset (by simp)
          exact hfirst hmem
      · -- The first element is `x`, and `y` stands in the rest.
        obtain ⟨rfl, rfl⟩ := List.cons.inj heq
        have hy : y ∈ rest := hafter.subset (by simp)
        rcases List.sublist_cons_iff.mp hyx with hswapped | ⟨_, heq, _⟩
        · have hmem : x ∈ rest := hswapped.subset (by simp)
          exact hfirst hmem
        · obtain ⟨rfl, _⟩ := List.cons.inj heq
          exact hfirst hy

/-- When two neighbours change places, all other pairs keep their order. -/
theorem sublist_exchange {x y a b : α} {front back : List α}
    (h : [x, y].Sublist (front ++ a :: b :: back)) :
    x = a ∧ y = b ∨ [x, y].Sublist (front ++ b :: a :: back) := by
  induction front with
  | nil =>
      rcases List.sublist_cons_iff.mp h with hinner | ⟨_, heq, hafter⟩
      · -- Without `a`, the pair stands in the same order as before.
        exact Or.inr (hinner.trans (.cons_cons b (.cons a (.refl back))))
      · obtain ⟨rfl, rfl⟩ := List.cons.inj heq
        have hy : y ∈ b :: back := hafter.subset (by simp)
        rcases List.mem_cons.mp hy with rfl | hback
        · exact Or.inl ⟨rfl, rfl⟩
        · exact Or.inr (.cons b (.cons_cons x (List.singleton_sublist.mpr hback)))
  | cons first rest ih =>
      rcases List.sublist_cons_iff.mp h with hinner | ⟨_, heq, hafter⟩
      · exact (ih hinner).imp_right (.cons first)
      · obtain ⟨rfl, rfl⟩ := List.cons.inj heq
        have hy : y ∈ rest ++ a :: b :: back := hafter.subset (by simp)
        have hperm : (rest ++ a :: b :: back).Perm (rest ++ b :: a :: back) :=
          (List.Perm.swap b a back).append_left rest
        exact Or.inr (.cons_cons x (List.singleton_sublist.mpr (hperm.mem_iff.mp hy)))

/-- If any two elements with a property stand in the same order in two arrangements of a list, all
of them do. -/
theorem filter_eq_of_perm (hperm : xs.Perm ys) (hnodup : ys.Nodup) {p : α → Bool}
    (horder : ∀ x y, p x = true → p y = true → [x, y].Sublist xs → [x, y].Sublist ys) :
    xs.filter p = ys.filter p := by
  have hleft : (xs.filter p).Pairwise fun x y => [x, y].Sublist ys := by
    refine List.pairwise_iff_forall_sublist.mpr fun {x y} hxy => ?_
    have hx := List.of_mem_filter (hxy.subset (show x ∈ [x, y] by simp))
    have hy := List.of_mem_filter (hxy.subset (show y ∈ [x, y] by simp))
    exact horder x y hx hy (hxy.trans List.filter_sublist)
  have hright : (ys.filter p).Pairwise fun x y => [x, y].Sublist ys :=
    List.pairwise_iff_forall_sublist.mpr fun hxy => hxy.trans List.filter_sublist
  exact List.Perm.eq_of_pairwise
    (fun x y _ _ hxy hyx => absurd hyx (not_sublist_swap hnodup hxy)) hleft hright
    (hperm.filter p)

/-- If any two elements for which a function has a value stand in the same order in two arrangements
of a list, the last value is the same. -/
theorem findSome?_reverse_eq_of_perm (hperm : xs.Perm ys) (hnodup : ys.Nodup) {f : α → Option β}
    (horder : ∀ x y, (f x).isSome = true → (f y).isSome = true → [x, y].Sublist xs →
      [x, y].Sublist ys) : xs.reverse.findSome? f = ys.reverse.findSome? f := by
  have hfilter : ∀ zs : List α, zs.findSome? f = (zs.filter fun x => (f x).isSome).findSome? f := by
    intro zs
    rw [← List.head?_filterMap, ← List.head?_filterMap, List.filterMap_filter]
    congr 2
    funext x
    cases hx : f x <;> simp
  rw [hfilter, hfilter ys.reverse, List.filter_reverse, List.filter_reverse,
    filter_eq_of_perm hperm hnodup horder]

end Lists

/-- The entries of a table are distinct. -/
theorem Table.nodup_entries {α : Type} (table : Table α) : table.entries.Nodup :=
  table.nodup.of_map

/-! ## Contributions in two orders -/

namespace Declarations

/-- A path to a text starts with a key of the object. -/
theorem mem_keys_of_textAt? {d : Declarations} {key : String} {rest : List String}
    (h : (d.textAt? (key :: rest)).isSome = true) : key ∈ d.keys := by
  have hget : d.get? key ≠ none := by
    intro hnone
    cases rest with
    | nil => simp [textAt?, hnone] at h
    | cons next rest => simp [textAt?, nested?, hnone] at h
  by_contra hkey
  exact hget (Assoc.get?_eq_none_iff.mpr hkey)

/-- Whether two objects hold texts at a common path. -/
def Overlap (d e : Declarations) : Prop :=
  ∃ path, (d.textAt? path).isSome = true ∧ (e.textAt? path).isSome = true

/-- Overlapping goes both ways. -/
theorem Overlap.symm {d e : Declarations} (h : Overlap d e) : Overlap e d := by
  obtain ⟨path, hd, he⟩ := h
  exact ⟨path, he, hd⟩

/-- An object that overlaps another one holds a text. -/
theorem Overlap.ne_nil {d e : Declarations} (h : Overlap d e) : d ≠ [] ∧ e ≠ [] := by
  obtain ⟨path, hd, he⟩ := h
  constructor
  · rintro rfl
    simp at hd
  · rintro rfl
    simp at he

/-- Objects that overlap share a key. -/
theorem Overlap.exists_mem_keys {d e : Declarations} (h : Overlap d e) :
    ∃ key, key ∈ d.keys ∧ key ∈ e.keys := by
  obtain ⟨path, hd, he⟩ := h
  cases path with
  | nil => cases hd
  | cons key rest => exact ⟨key, mem_keys_of_textAt? hd, mem_keys_of_textAt? he⟩

variable {α : Type} {scope : String → Prop} {part : α → Declarations} {xs ys : List α}

/-- Parts can be merged in any order that keeps the parts that overlap in order. -/
theorem sameContents_mergeAll_of_perm (hpart : ∀ x, Separated scope (part x)) (hperm : xs.Perm ys)
    (hnodup : ys.Nodup)
    (horder : ∀ x y, Overlap (part x) (part y) → [x, y].Sublist xs → [x, y].Sublist ys) :
    SameContents (mergeAll [] (xs.map part)) (mergeAll [] (ys.map part)) := by
  have hsources : ∀ zs : List α, ∀ source ∈ zs.map part, Separated scope source := by
    intro zs source hmem
    obtain ⟨x, _, rfl⟩ := List.mem_map.mp hmem
    exact hpart x
  constructor
  · intro path
    rw [Separated.nil.textAt?_mergeAll (hsources xs), Separated.nil.textAt?_mergeAll (hsources ys),
      ← List.map_reverse, ← List.map_reverse, List.findSome?_map, List.findSome?_map]
    congr 1
    exact findSome?_reverse_eq_of_perm hperm hnodup fun x y hx hy => horder x y ⟨path, hx, hy⟩
  · intro path key
    rw [Separated.nil.keysAt_mergeAll (hsources xs), Separated.nil.keysAt_mergeAll (hsources ys)]
    simp only [List.mem_eraseDups, List.mem_append, List.mem_flatMap, List.mem_map,
      exists_exists_and_eq_and, hperm.mem_iff]

end Declarations

/-- Resolutions that have the shape have it one after another too. -/
theorem Resolution.separated_all {α : Type} {scope : String → Prop} {part : α → Resolution}
    (hpart : ∀ x, Declarations.Separated scope (part x).declarations) (xs : List α) :
    Declarations.Separated scope (all (xs.map part)).declarations := by
  refine declarations_all_induction .nil (fun _ _ => .merge) fun resolution hmem => ?_
  obtain ⟨x, _, rfl⟩ := List.mem_map.mp hmem
  exact hpart x

/-- Resolutions can follow each other in another order if their declarations can be merged in it. -/
theorem Resolution.sameContents_all_of_perm {α : Type} {scope : String → Prop}
    {part : α → Resolution} {xs ys : List α}
    (hpart : ∀ x, Declarations.Separated scope (part x).declarations) (hperm : xs.Perm ys)
    (hnodup : ys.Nodup)
    (horder : ∀ x y, Declarations.Overlap (part x).declarations (part y).declarations →
      [x, y].Sublist xs → [x, y].Sublist ys) :
    Declarations.SameContents (all (xs.map part)).declarations (all (ys.map part)).declarations ∧
      (all (xs.map part)).diagnostics.Perm (all (ys.map part)).diagnostics := by
  constructor
  · rw [declarations_all, declarations_all, List.map_map, List.map_map]
    exact Declarations.sameContents_mergeAll_of_perm hpart hperm hnodup horder
  · rw [diagnostics_all, diagnostics_all, List.flatMap_map, List.flatMap_map]
    exact hperm.flatMap_right _

/-- Whether no name is both that of an alias and that of a selector. -/
def Config.SeparatesNames (config : Config) : Prop :=
  ∀ {name : String} {kind : SelectorKind},
    config.scopes.get? name = some kind → config.aliases.get? name = none

/-- In the built-in configuration, no name is both. -/
theorem Config.builtin_separatesNames : builtin.SeparatesNames :=
  builtin_aliases_eq_none

namespace Resolver

open Declarations (Overlap Reordering Separated)

variable {resolver : Resolver}

/-! ## Props in two orders -/

/-- What a prop resolves to by itself. -/
def alone (resolver : Resolver) (prop : String × PropValue) : Declarations :=
  (resolver.resolve (Table.ofList [prop])).declarations

/-- Whether any two props of a kind that by themselves resolve to texts at a common path stand in
the same order in two arrangements. -/
def KeepsConflicts (resolver : Resolver) (ofKind : String → Bool) (props others : Props) : Prop :=
  ∀ first second : String × PropValue, ofKind first.1 = true → ofKind second.1 = true →
    Overlap (resolver.alone first) (resolver.alone second) →
      ([first, second].Sublist props.entries ↔ [first, second].Sublist others.entries)

/-- Two neighbours can change places if they do not overlap or are not both of the kind. -/
theorem KeepsConflicts.of_exchange {ofKind : String → Bool} {props others : Props}
    {front back : List (String × PropValue)} {a b : String × PropValue}
    (hprops : props.entries = front ++ a :: b :: back)
    (hothers : others.entries = front ++ b :: a :: back)
    (hapart : ofKind a.1 = true → ofKind b.1 = true →
      ¬ Overlap (resolver.alone a) (resolver.alone b)) :
    KeepsConflicts resolver ofKind props others := by
  intro first second hfirst hsecond hoverlap
  rw [hprops, hothers]
  constructor
  · intro hbefore
    rcases sublist_exchange hbefore with ⟨rfl, rfl⟩ | hkept
    · exact absurd hoverlap (hapart hfirst hsecond)
    · exact hkept
  · intro hafter
    rcases sublist_exchange hafter with ⟨rfl, rfl⟩ | hkept
    · exact absurd hoverlap.symm (hapart hsecond hfirst)
    · exact hkept

/-- Where a predicate sorts the keys, props can be put into any order in which the contributions
that overlap keep their order within each group. -/
theorem reordering_resolve_of_perm {scope : String → Prop} (h : resolver.config.SortsKeys scope)
    {props others : Props} (hperm : props.entries.Perm others.entries)
    (haliases : ∀ first second : String × PropValue,
      Overlap (resolver.asAlias first.1 first.2).declarations
          (resolver.asAlias second.1 second.2).declarations →
        [first, second].Sublist props.entries → [first, second].Sublist others.entries)
    (hselectors : ∀ first second : String × PropValue,
      Overlap (resolver.asSelector first.1 first.2).declarations
          (resolver.asSelector second.1 second.2).declarations →
        [first, second].Sublist props.entries → [first, second].Sublist others.entries) :
    Reordering (resolver.resolve props).declarations (resolver.resolve others).declarations ∧
      (resolver.resolve props).diagnostics.Perm (resolver.resolve others).diagnostics := by
  have halias : ∀ prop : String × PropValue,
      Separated scope (resolver.asAlias prop.1 prop.2).declarations :=
    fun prop => separated_asAlias h prop.1 prop.2
  have hselector : ∀ prop : String × PropValue,
      Separated scope (resolver.asSelector prop.1 prop.2).declarations :=
    fun prop => separated_asSelector h prop.1 prop.2
  obtain ⟨hfirst, hdiagnostics⟩ :=
    Resolution.sameContents_all_of_perm halias hperm others.nodup_entries haliases
  obtain ⟨hsecond, hmore⟩ :=
    Resolution.sameContents_all_of_perm hselector hperm others.nodup_entries hselectors
  have hleftAlias := Resolution.separated_all halias props.entries
  have hrightAlias := Resolution.separated_all halias others.entries
  have hleftSelector := Resolution.separated_all hselector props.entries
  have hrightSelector := Resolution.separated_all hselector others.entries
  have hmerged := Separated.sameContents_merge hleftAlias hrightAlias hleftSelector hrightSelector
    hfirst hsecond
  have hreordering :=
    (hleftAlias.merge hleftSelector).reordering (hrightAlias.merge hrightSelector) hmerged
  exact ⟨hreordering, hdiagnostics.append hmore⟩

/-- Only aliases contribute declarations as such. -/
theorem contains_of_asAlias {prop : String × PropValue}
    (h : (resolver.asAlias prop.1 prop.2).declarations ≠ []) :
    resolver.config.aliases.contains prop.1 = true := by
  refine Option.isSome_iff_ne_none.mpr fun hnone => h ?_
  rw [asAlias_eq_empty hnone]
  rfl

/-- Only selectors contribute declarations as such. -/
theorem contains_of_asSelector {prop : String × PropValue}
    (h : (resolver.asSelector prop.1 prop.2).declarations ≠ []) :
    resolver.config.scopes.contains prop.1 = true := by
  refine Option.isSome_iff_ne_none.mpr fun hnone => h ?_
  rw [asSelector_eq_empty hnone]
  rfl

/-- Where no prop is both an alias and a selector, an alias by itself resolves to what it
contributes as one. -/
theorem alone_eq_asAlias (hseparate : resolver.config.SeparatesNames) {prop : String × PropValue}
    (halias : resolver.config.aliases.contains prop.1 = true) :
    resolver.alone prop = (resolver.asAlias prop.1 prop.2).declarations := by
  obtain ⟨entry, hentry⟩ := Option.isSome_iff_exists.mp halias
  have hscope : resolver.config.scopes.get? prop.1 = none := by
    cases hkind : resolver.config.scopes.get? prop.1 with
    | none => rfl
    | some kind => cases hentry.symm.trans (hseparate hkind)
  rw [alone, resolve_eq_asAlias resolver hscope]

/-- Where no prop is both an alias and a selector, a selector by itself resolves to what it
contributes as one. -/
theorem alone_eq_asSelector (hseparate : resolver.config.SeparatesNames) {prop : String × PropValue}
    (hselector : resolver.config.scopes.contains prop.1 = true) :
    resolver.alone prop = (resolver.asSelector prop.1 prop.2).declarations := by
  obtain ⟨kind, hkind⟩ := Option.isSome_iff_exists.mp hselector
  rw [alone, resolve_eq_asSelector resolver (hseparate hkind)]

/-- Where a predicate sorts the keys and no prop is both an alias and a selector, props can be put
into any order that keeps the conflicts within each kind. -/
theorem reordering_resolve_of_separatesNames {scope : String → Prop}
    (h : resolver.config.SortsKeys scope) (hseparate : resolver.config.SeparatesNames)
    {props others : Props} (hperm : props.entries.Perm others.entries)
    (haliases : KeepsConflicts resolver resolver.config.aliases.contains props others)
    (hselectors : KeepsConflicts resolver resolver.config.scopes.contains props others) :
    Reordering (resolver.resolve props).declarations (resolver.resolve others).declarations ∧
      (resolver.resolve props).diagnostics.Perm (resolver.resolve others).diagnostics := by
  refine reordering_resolve_of_perm h hperm ?aliases ?selectors
  case aliases =>
    intro first second hoverlap
    have hfirst := contains_of_asAlias hoverlap.ne_nil.1
    have hsecond := contains_of_asAlias hoverlap.ne_nil.2
    rw [← alone_eq_asAlias hseparate hfirst, ← alone_eq_asAlias hseparate hsecond] at hoverlap
    exact (haliases first second hfirst hsecond hoverlap).mp
  case selectors =>
    intro first second hoverlap
    have hfirst := contains_of_asSelector hoverlap.ne_nil.1
    have hsecond := contains_of_asSelector hoverlap.ne_nil.2
    rw [← alone_eq_asSelector hseparate hfirst, ← alone_eq_asSelector hseparate hsecond] at hoverlap
    exact (hselectors first second hfirst hsecond hoverlap).mp

/-- In the built-in configuration, in either mode, props in another order in which any two aliases
that by themselves resolve to texts at a common path keep their order, and likewise any two
selectors, resolve to the same declarations but for the order of entries at every depth, and to the
same diagnostics in some order. -/
theorem reordering_resolve_of_keepsConflicts (strict : Bool) {props others : Props}
    (hperm : props.entries.Perm others.entries)
    (haliases :
      KeepsConflicts ⟨Config.builtin, strict⟩ Config.builtin.aliases.contains props others)
    (hselectors :
      KeepsConflicts ⟨Config.builtin, strict⟩ Config.builtin.scopes.contains props others) :
    Reordering (resolve ⟨Config.builtin, strict⟩ props).declarations
        (resolve ⟨Config.builtin, strict⟩ others).declarations ∧
      (resolve ⟨Config.builtin, strict⟩ props).diagnostics.Perm
        (resolve ⟨Config.builtin, strict⟩ others).diagnostics := by
  have hsorts : (Resolver.mk Config.builtin strict).config.SortsKeys Config.builtin.IsScopeKey :=
    Config.builtin_scopeSeparated.sortsKeys
  have hseparate : (Resolver.mk Config.builtin strict).config.SeparatesNames :=
    Config.builtin_separatesNames
  exact reordering_resolve_of_separatesNames hsorts hseparate hperm haliases hselectors

/-- Two aliases between two others that both set the left padding change places. -/
theorem reordering_resolve_of_keepsConflicts_widows :
    let props : Props := ⟨[("px", .text "1"), ("widows", .text "2|@no=3"), ("orphans", .text "4"),
      ("pl", .text "5")], by decide⟩
    let others : Props := ⟨[("px", .text "1"), ("orphans", .text "4"), ("widows", .text "2|@no=3"),
      ("pl", .text "5")], by decide⟩
    Reordering (resolve ⟨Config.builtin, true⟩ props).declarations
        (resolve ⟨Config.builtin, true⟩ others).declarations ∧
      (resolve ⟨Config.builtin, true⟩ props).diagnostics.Perm
        (resolve ⟨Config.builtin, true⟩ others).diagnostics := by
  intro props others
  have hseparate : (Resolver.mk Config.builtin true).config.SeparatesNames :=
    Config.builtin_separatesNames
  have halone : ∀ {name : String} {value : PropValue},
      Config.builtin.aliases.get? name = some (.property name name) →
      (aliasProp ⟨Config.builtin, true⟩ (.property name name) name value).declarations.keys =
        [name] →
      (alone ⟨Config.builtin, true⟩ (name, value)).keys = [name] := by
    intro name value hentry hkeys
    have halias : Config.builtin.aliases.contains name = true := by
      rw [Table.contains, hentry]
      rfl
    have hsame : alone ⟨Config.builtin, true⟩ (name, value) =
        (asAlias ⟨Config.builtin, true⟩ name value).declarations :=
      alone_eq_asAlias hseparate halias
    rw [hsame]
    simp only [asAlias, hentry, hkeys]
  have hwidows : (alone ⟨Config.builtin, true⟩ ("widows", .text "2|@no=3")).keys = ["widows"] := by
    refine halone ?_ (by decide +kernel)
    rw [Config.builtin_aliases, AliasTable.get?_builtin]
    rfl
  have horphans : (alone ⟨Config.builtin, true⟩ ("orphans", .text "4")).keys = ["orphans"] := by
    refine halone ?_ (by decide +kernel)
    rw [Config.builtin_aliases, AliasTable.get?_builtin]
    rfl
  have hapart : ¬ Overlap (alone ⟨Config.builtin, true⟩ ("widows", .text "2|@no=3"))
      (alone ⟨Config.builtin, true⟩ ("orphans", .text "4")) := by
    intro hoverlap
    obtain ⟨key, hkey, hother⟩ := hoverlap.exists_mem_keys
    rw [hwidows, List.mem_singleton] at hkey
    rw [horphans, List.mem_singleton, hkey] at hother
    exact absurd hother (by decide)
  have hkeeps : ∀ ofKind, KeepsConflicts ⟨Config.builtin, true⟩ ofKind props others := fun ofKind =>
    .of_exchange (show props.entries = [("px", .text "1")] ++ _ :: _ :: _ from rfl) rfl
      fun _ _ => hapart
  exact reordering_resolve_of_keepsConflicts true (.cons _ (.swap _ _ _)) (hkeeps _) (hkeeps _)

end Resolver

end StyleProps
