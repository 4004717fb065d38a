import StyleProps.Declaration.Merge

/-!
# Laws of merging

What a merge does to the keys of an object and to the value under each of them, and what follows by
induction over nested scopes. Read `keys_merge` and `get?_merge` first. `merge_assoc` says that
sources can be regrouped if the object in the middle agrees in kind with its neighbours, which is
what `Compatible` asks for. For a class of objects that are all compatible and that merges do not
leave, `Regroupable.merge_mergeAll` says it of any number of sources.
-/

namespace StyleProps.Declarations

open Value

/-! ## Induction over nested scopes -/

/-- A scope stored in an object is smaller than the object. -/
theorem sizeOf_nested_lt {d inner : Declarations} {key : String}
    (h : d.get? key = some (.nested inner)) : sizeOf inner < sizeOf d := by
  have hlt := List.sizeOf_lt_of_mem (Assoc.mem_of_get? h)
  simp only [Prod.mk.sizeOf_spec, Value.nested.sizeOf_spec] at hlt
  omega

/-- What holds of an object as soon as it holds of every scope stored in it holds of all objects. -/
theorem nested_induction {motive : Declarations → Prop}
    (step : ∀ d : Declarations,
      (∀ key inner, d.get? key = some (.nested inner) → motive inner) → motive d)
    (d : Declarations) : motive d :=
  step d fun _ inner _ => nested_induction step inner
termination_by sizeOf d
decreasing_by exact sizeOf_nested_lt ‹_›

/-! ## Well-formed objects -/

/-- The values of a list of entries are well formed exactly when each of them is. -/
theorem wellFormedEntries_iff {entries : List (String × Value)} :
    WellFormedEntries entries ↔ ∀ pair ∈ entries, pair.2.WellFormed := by
  induction entries with
  | nil => simp [WellFormedEntries]
  | cons pair rest ih => simp [WellFormedEntries, ih]

/-- The items of a list are well formed exactly when each of them is. -/
theorem wellFormedItems_iff {items : List Value} :
    WellFormedItems items ↔ ∀ item ∈ items, item.WellFormed := by
  induction items with
  | nil => simp [WellFormedItems]
  | cons item rest ih => simp [WellFormedItems, ih]

/-- An object is well formed exactly when its keys are distinct and its values are well formed. -/
theorem wellFormed_iff {d : Declarations} :
    d.WellFormed ↔
      d.keys.Nodup ∧ ∀ key value, d.get? key = some value → value.WellFormed := by
  unfold WellFormed
  rw [Value.WellFormed, wellFormedEntries_iff]
  constructor
  · rintro ⟨hnodup, hvalues⟩
    exact ⟨hnodup, fun key value h => hvalues _ (Assoc.mem_of_get? h)⟩
  · rintro ⟨hnodup, hvalues⟩
    exact ⟨hnodup, fun pair h => hvalues pair.1 pair.2 (Assoc.get?_of_mem hnodup h)⟩

/-- The keys of a well-formed object are distinct. -/
theorem WellFormed.nodup {d : Declarations} (h : d.WellFormed) : d.keys.Nodup :=
  (wellFormed_iff.mp h).1

/-- The values of a well-formed object are well formed. -/
theorem WellFormed.value {d : Declarations} (h : d.WellFormed) {key : String} {value : Value}
    (hget : d.get? key = some value) : value.WellFormed :=
  (wellFormed_iff.mp h).2 key value hget

/-- The scopes of a well-formed object are well formed. -/
theorem WellFormed.nested {d inner : Declarations} (h : d.WellFormed) {key : String}
    (hget : d.get? key = some (.nested inner)) : inner.WellFormed :=
  h.value hget

/-- The empty object is well formed. -/
theorem wellFormed_nil : WellFormed [] :=
  wellFormed_iff.mpr ⟨List.nodup_nil, fun key value h => by simp at h⟩

/-- The scope under a key of a well-formed object, or the empty one, is well formed. -/
theorem WellFormed.nested?_getD {d : Declarations} (h : d.WellFormed) (key : String) :
    ((d.nested? key).getD []).WellFormed := by
  cases hget : d.nested? key with
  | none => exact wellFormed_nil
  | some inner => exact h.nested (nested?_eq_some_iff.mp hget)

/-- The items of a list under a key of a well-formed object are well formed. -/
theorem WellFormed.item {d : Declarations} (h : d.WellFormed) {key : String} {item : Value}
    (hitem : item ∈ ((d.get? key).bind Value.asList?).getD []) : item.WellFormed := by
  cases hget : d.get? key with
  | none => simp [hget] at hitem
  | some value =>
      cases value with
      | list items =>
          have hwf := h.value hget
          rw [Value.WellFormed, wellFormedItems_iff] at hwf
          exact hwf item (by simpa [hget, Value.asList?] using hitem)
      | text _ => simp [hget, Value.asList?] at hitem
      | number _ => simp [hget, Value.asList?] at hitem
      | nested _ => simp [hget, Value.asList?] at hitem

/-! ## Keys and values of a merge -/

/-- The keys of a merge: those of the target, and then the new ones of the source. -/
theorem keys_merge (target : Declarations) {source : Declarations} (h : source.keys.Nodup) :
    (target.merge source).keys =
      target.keys ++ source.keys.filter fun key => key ∉ target.keys := by
  induction source generalizing target with
  | nil => simp
  | cons entry rest ih =>
      obtain ⟨key, incoming⟩ := entry
      obtain ⟨hkey, hrest⟩ := List.nodup_cons.mp h
      have hinsert : (target.insert key (combine (target.get? key) incoming)).keys =
          if key ∈ target.keys then target.keys else target.keys ++ [key] :=
        Assoc.keys_insert _ _ _
      rw [merge_cons, ih _ hrest, hinsert, keys_cons]
      by_cases hmem : key ∈ target.keys
      · simp [hmem]
      · -- The key is new, and it does not occur again in the rest.
        have hfilter : (keys rest).filter (fun k => k ∉ target.keys ++ [key]) =
            (keys rest).filter fun k => k ∉ target.keys := by
          refine List.filter_congr fun k hk => ?_
          have hne : k ≠ key := by
            rintro rfl
            exact hkey hk
          simp [hne]
        rw [if_neg hmem, hfilter]
        simp [hmem]

/-- The value under a key of a merge: the target's own, or the incoming one combined with it. -/
theorem get?_merge (target : Declarations) {source : Declarations} (h : source.keys.Nodup)
    (key : String) :
    (target.merge source).get? key =
      match source.get? key with
      | none => target.get? key
      | some incoming => some (combine (target.get? key) incoming) := by
  induction source generalizing target with
  | nil => rfl
  | cons entry rest ih =>
      obtain ⟨k, incoming⟩ := entry
      obtain ⟨hk, hrest⟩ := List.nodup_cons.mp h
      rw [merge_cons, ih _ hrest]
      by_cases hkey : k = key
      · subst hkey
        have habsent : get? rest k = none := Assoc.get?_eq_none_iff.mpr hk
        rw [habsent, get?_cons_self]
        exact Assoc.get?_insert_self _ _ _
      · have hother : (target.insert k (combine (target.get? k) incoming)).get? key =
            target.get? key := Assoc.get?_insert_of_ne hkey _ _
        rw [get?_cons_of_ne hkey, hother]

/-- A key that the source lacks keeps its value. -/
theorem get?_merge_of_none (target : Declarations) {source : Declarations} {key : String}
    (h : source.keys.Nodup) (hnone : source.get? key = none) :
    (target.merge source).get? key = target.get? key := by
  rw [get?_merge target h, hnone]

/-- A key that the source has gets the incoming value, combined with the stored one. -/
theorem get?_merge_of_some (target : Declarations) {source : Declarations} {key : String}
    {incoming : Value} (h : source.keys.Nodup) (hsome : source.get? key = some incoming) :
    (target.merge source).get? key = some (combine (target.get? key) incoming) := by
  rw [get?_merge target h, hsome]

/-- An incoming scope is merged into the scope that is stored, or into an empty one. -/
theorem combine_nested (target : Declarations) (key : String) (inner : Declarations) :
    combine (target.get? key) (.nested inner) =
      .nested (((target.nested? key).getD []).merge inner) := rfl

/-- The items of an incoming list follow those of the list that is stored. -/
theorem combine_list (stored : Option Value) (items : List Value) :
    combine stored (.list items) = .list ((stored.bind Value.asList?).getD [] ++ items) := rfl

/-- What is no scope in the source is no scope in the merge, unless it is the target's own. -/
theorem nested?_merge_of_none (target : Declarations) {source : Declarations} {key : String}
    (h : source.keys.Nodup) (hnone : source.nested? key = none) :
    (target.merge source).nested? key =
      if source.contains key then none else target.nested? key := by
  unfold nested? contains at *
  cases hget : source.get? key with
  | none => rw [get?_merge_of_none target h hget]; rfl
  | some incoming =>
      rw [get?_merge_of_some target h hget]
      cases incoming with
      | nested inner => simp [hget, Value.asNested?] at hnone
      | text _ | number _ | list _ => rfl

/-- What is a scope in the source is the merge of both scopes. -/
theorem nested?_merge_of_some (target : Declarations) {source inner : Declarations}
    {key : String} (h : source.keys.Nodup) (hsome : source.nested? key = some inner) :
    (target.merge source).nested? key = some (((target.nested? key).getD []).merge inner) := by
  rw [nested?_eq_some_iff] at hsome ⊢
  rw [get?_merge_of_some target h hsome, combine_nested]

/-- The scope under a key of a merge, if the source puts nothing else in the place of a scope. -/
theorem nested?_merge_getD (target : Declarations) {source : Declarations} {key : String}
    (h : source.keys.Nodup)
    (hscope : ∀ left middle, target.get? key = some (.nested left) →
      source.get? key = some middle → ∃ inner, middle = .nested inner) :
    ((target.merge source).nested? key).getD [] =
      ((target.nested? key).getD []).merge ((source.nested? key).getD []) := by
  cases hsource : source.nested? key with
  | some inner => rw [nested?_merge_of_some target h hsource]; rfl
  | none =>
      rw [nested?_merge_of_none target h hsource, Option.getD_none, merge_nil]
      cases htarget : target.nested? key with
      | none => simp
      | some left =>
          cases hget : source.get? key with
          | none => simp [contains, hget]
          | some middle =>
              obtain ⟨inner, rfl⟩ := hscope left middle (nested?_eq_some_iff.mp htarget) hget
              simp [nested?, hget, Value.asNested?] at hsource

/-- The items of a combined list: those that are stored and the incoming ones. -/
theorem asList?_combine {stored : Option Value} {incoming : Value}
    (h : ∀ items, stored = some (.list items) → ∃ others, incoming = .list others) :
    (combine stored incoming).asList?.getD [] =
      (stored.bind Value.asList?).getD [] ++ incoming.asList?.getD [] := by
  cases incoming with
  | list items => rfl
  | text _ | number _ | nested _ =>
      cases stored with
      | none => rfl
      | some value =>
          cases value with
          | list items => simpa using h items rfl
          | text _ | number _ | nested _ => rfl

/-- Storing a value leaves no object empty. -/
theorem insert_ne_nil (d : Declarations) (key : String) (value : Value) :
    d.insert key value ≠ [] := by
  intro h
  have hget : (d.insert key value).get? key = some value := Assoc.get?_insert_self key value d
  rw [h, get?_nil] at hget
  cases hget

/-- A merge is empty only if there was nothing to merge. -/
theorem merge_eq_nil_iff {target source : Declarations} :
    target.merge source = [] ↔ target = [] ∧ source = [] := by
  induction source generalizing target with
  | nil => simp
  | cons entry rest ih =>
      obtain ⟨key, incoming⟩ := entry
      rw [merge_cons, ih]
      simp [insert_ne_nil]

/-- Merging keeps keys distinct. -/
theorem nodup_keys_merge {target : Declarations} (h : target.keys.Nodup) (source : Declarations) :
    (target.merge source).keys.Nodup := by
  induction source generalizing target with
  | nil => exact h
  | cons entry rest ih => exact ih (Assoc.nodup_keys_insert h _ _)

/-- Merging well-formed objects gives a well-formed object. -/
theorem WellFormed.merge {target source : Declarations} (htarget : target.WellFormed)
    (hsource : source.WellFormed) : (target.merge source).WellFormed := by
  induction source using nested_induction generalizing target with
  | step source ih =>
      refine wellFormed_iff.mpr ⟨nodup_keys_merge htarget.nodup source, fun key value hget => ?_⟩
      cases hincoming : source.get? key with
      | none =>
          rw [get?_merge_of_none target hsource.nodup hincoming] at hget
          exact htarget.value hget
      | some incoming =>
          rw [get?_merge_of_some target hsource.nodup hincoming] at hget
          obtain rfl := Option.some.inj hget
          have hwf := hsource.value hincoming
          cases incoming with
          | text content => exact hwf
          | number x => exact hwf
          | list items =>
              rw [Value.WellFormed, wellFormedItems_iff] at hwf
              rw [combine_list, Value.WellFormed, wellFormedItems_iff]
              intro item hitem
              rcases List.mem_append.mp hitem with hstored | hnew
              · exact htarget.item hstored
              · exact hwf item hnew
          | nested inner =>
              rw [combine_nested]
              exact ih key inner hincoming (htarget.nested?_getD key) (hsource.nested hincoming)

/-- The empty object is a left identity of well-formed objects. -/
theorem nil_merge {d : Declarations} (h : d.WellFormed) : merge [] d = d := by
  induction d using nested_induction with
  | step d ih =>
      have hnodup : (keys []).Nodup := List.nodup_nil
      refine Assoc.ext_of_get? ?_ (nodup_keys_merge hnodup d) fun key => ?_
      · have hkeys := keys_merge [] h.nodup
        rw [List.filter_eq_self.mpr (by simp)] at hkeys
        exact hkeys
      · show get? (merge [] d) key = d.get? key
        cases hget : d.get? key with
        | none => exact get?_merge_of_none [] h.nodup hget
        | some value =>
            rw [get?_merge_of_some [] h.nodup hget]
            cases value with
            | text _ => rfl
            | number _ => rfl
            | list items => rfl
            | nested inner =>
                have hinner : merge [] inner = inner := ih key inner hget (h.nested hget)
                exact congrArg (fun d => some (Value.nested d)) hinner

/-! ## Regrouping -/

/-- Three objects whose merges can be regrouped: under a key of all three, a list in the first and
the third comes with a list in the second, and scopes in the first and the third come with a scope
in the second, where the same holds. -/
inductive Compatible : Declarations → Declarations → Declarations → Prop where
  | intro {first second third : Declarations}
      (list : ∀ key left middle right, first.get? key = some (.list left) →
        second.get? key = some middle → third.get? key = some (.list right) →
        ∃ items, middle = .list items)
      (scope : ∀ key left middle right, first.get? key = some (.nested left) →
        second.get? key = some middle → third.get? key = some (.nested right) →
        ∃ inner, middle = .nested inner)
      (inner : ∀ key left middle right, first.get? key = some (.nested left) →
        second.get? key = some (.nested middle) → third.get? key = some (.nested right) →
        Compatible left middle right) :
      Compatible first second third

/-- The keys of a merge do not depend on how three objects are grouped. -/
theorem keys_merge_assoc (first : Declarations) {second third : Declarations}
    (hsecond : second.keys.Nodup) (hthird : third.keys.Nodup) :
    ((first.merge second).merge third).keys = (first.merge (second.merge third)).keys := by
  rw [keys_merge _ hthird, keys_merge _ (nodup_keys_merge hsecond third), keys_merge _ hsecond,
    keys_merge _ hthird, List.filter_append, List.filter_filter, List.append_assoc]
  congr 2
  refine List.filter_congr fun key _ => ?_
  by_cases hfirst : key ∈ first.keys <;> by_cases hmem : key ∈ second.keys <;>
    simp [hfirst, hmem]

/-- Merges of compatible objects can be regrouped, with the same order of keys at every depth. -/
theorem merge_assoc {first second third : Declarations} (h : Compatible first second third)
    (hfirst : first.WellFormed) (hsecond : second.WellFormed) (hthird : third.WellFormed) :
    (first.merge second).merge third = first.merge (second.merge third) := by
  induction h with
  | @intro first second third list scope inner ih =>
      have hright := hsecond.merge hthird
      refine Assoc.ext_of_get? (keys_merge_assoc first hsecond.nodup hthird.nodup)
        (nodup_keys_merge (nodup_keys_merge hfirst.nodup second) third) fun key => ?_
      show get? ((first.merge second).merge third) key = get? (first.merge (second.merge third)) key
      -- What the third object holds decides: a text or a number replaces all else.
      cases hc : third.get? key with
      | none =>
          rw [get?_merge_of_none _ hthird.nodup hc]
          have hcb := get?_merge_of_none second hthird.nodup hc
          cases hb : second.get? key with
          | none =>
              rw [get?_merge_of_none _ hsecond.nodup hb,
                get?_merge_of_none _ hright.nodup (hcb.trans hb)]
          | some middle =>
              rw [get?_merge_of_some _ hsecond.nodup hb,
                get?_merge_of_some _ hright.nodup (hcb.trans hb)]
      | some right =>
          have hcb := get?_merge_of_some second hthird.nodup hc
          rw [get?_merge_of_some _ hthird.nodup hc, get?_merge_of_some _ hright.nodup hcb]
          cases right with
          | text _ => rfl
          | number _ => rfl
          | list items =>
              rw [combine_list, combine_list, combine_list]
              cases hb : second.get? key with
              | none => rw [get?_merge_of_none _ hsecond.nodup hb]; rfl
              | some middle =>
                  have hitems := asList?_combine fun left hleft =>
                    list key left middle items hleft hb hc
                  rw [get?_merge_of_some _ hsecond.nodup hb, Option.bind_some, hitems,
                    List.append_assoc]
                  rfl
          | nested right =>
              have hright : WellFormed right := hthird.nested hc
              rw [combine_nested, combine_nested, combine_nested, nested?_merge_getD first
                hsecond.nodup fun left middle ha hb => scope key left middle right ha hb hc]
              cases hb : second.nested? key with
              -- Without a scope in the second, the third's goes into the first's either way.
              | none => simp [nil_merge hright]
              | some middle =>
                  rw [nested?_eq_some_iff] at hb
                  have hmiddle := hsecond.nested hb
                  cases ha : first.nested? key with
                  | none =>
                      simp [nil_merge hmiddle, nil_merge (hmiddle.merge hright)]
                  | some left =>
                      rw [nested?_eq_some_iff] at ha
                      have hassoc := ih key left middle right ha hb hc (hfirst.nested ha)
                        hmiddle hright
                      simp only [Option.getD_some, hassoc]

/-! ## Any number of sources -/

/-- What a merge keeps, any number of merges keeps. -/
theorem mergeAll_induction {motive : Declarations → Prop}
    (hmerge : ∀ target source, motive target → motive source → motive (merge target source))
    {target : Declarations} (htarget : motive target) {sources : List Declarations}
    (h : ∀ source ∈ sources, motive source) : motive (target.mergeAll sources) := by
  induction sources generalizing target with
  | nil => exact htarget
  | cons source rest ih =>
      exact ih (hmerge target source htarget (h source List.mem_cons_self))
        fun other hother => h other (List.mem_cons_of_mem _ hother)

/-- Whether the objects of a class are compatible with each other, and merging leads to no
others. -/
structure Regroupable (member : Declarations → Prop) : Prop where
  nil : member []
  merge : ∀ target source, member target → member source → member (target.merge source)
  wellFormed : ∀ d, member d → d.WellFormed
  compatible : ∀ first second third, member first → member second → member third →
    Compatible first second third

namespace Regroupable

variable {member : Declarations → Prop} {target : Declarations} {sources : List Declarations}

/-- Merging any number of sources stays in the class. -/
theorem mergeAll (hclass : Regroupable member) (htarget : member target)
    (h : ∀ source ∈ sources, member source) : member (target.mergeAll sources) :=
  mergeAll_induction hclass.merge htarget h

/-- Merging sources into one object first and then into the target, or one by one into the target,
is the same. -/
theorem merge_mergeAll (hclass : Regroupable member) (htarget : member target)
    (h : ∀ source ∈ sources, member source) :
    target.merge (Declarations.mergeAll [] sources) = target.mergeAll sources := by
  induction sources generalizing target with
  | nil => rfl
  | cons source rest ih =>
      have hsource := h source List.mem_cons_self
      have hrest : ∀ other ∈ rest, member other :=
        fun other hother => h other (List.mem_cons_of_mem _ hother)
      have hall : member (Declarations.mergeAll [] rest) := hclass.mergeAll hclass.nil hrest
      have hcompatible := hclass.compatible target source _ htarget hsource hall
      calc target.merge (Declarations.mergeAll [] (source :: rest))
          = target.merge (Declarations.mergeAll source rest) := by
            rw [Declarations.mergeAll, List.foldl_cons, nil_merge (hclass.wellFormed _ hsource)]
            rfl
        _ = target.merge (source.merge (Declarations.mergeAll [] rest)) := by
            rw [ih hsource hrest]
        _ = (target.merge source).merge (Declarations.mergeAll [] rest) :=
            (merge_assoc hcompatible (hclass.wellFormed _ htarget) (hclass.wellFormed _ hsource)
              (hclass.wellFormed _ hall)).symm
        _ = (target.merge source).mergeAll rest :=
            ih (hclass.merge target source htarget hsource) hrest
        _ = target.mergeAll (source :: rest) := rfl

end Regroupable

end StyleProps.Declarations
