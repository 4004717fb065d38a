import StyleProps.Proofs.Merge

/-!
# Scope keys and property keys

The shape of every object that resolving produces. Keys are of two sorts: scope keys, which open
nested scopes, and all others, which hold texts. An object is `Separated` if this holds at every
depth. A merge keeps the shape, and on objects of this shape merges can be regrouped at will, which
is what `merge_mergeAll` says of any number of sources.
-/

namespace StyleProps.Declarations

/-- Whether exactly the scope keys open nested scopes and all other keys hold texts, at every depth,
with distinct keys in every object. -/
inductive Separated (scope : String → Prop) : Declarations → Prop where
  | intro {d : Declarations} (nodup : d.keys.Nodup)
      (text : ∀ key value, d.get? key = some value → ¬ scope key →
        ∃ content, value = .text content)
      (nested : ∀ key value, d.get? key = some value → scope key → ∃ inner, value = .nested inner)
      (inner : ∀ key inner, d.get? key = some (.nested inner) → Separated scope inner) :
      Separated scope d

variable {scope : String → Prop}

namespace Separated

/-- Keys are distinct. -/
theorem keys_nodup {d : Declarations} (h : Separated scope d) : d.keys.Nodup := by
  cases h with
  | intro nodup _ _ _ => exact nodup

/-- A key that opens no scope holds a text. -/
theorem exists_text {d : Declarations} (h : Separated scope d) {key : String} {value : Value}
    (hget : d.get? key = some value) (hkey : ¬ scope key) : ∃ content, value = .text content := by
  cases h with
  | intro _ text _ _ => exact text key value hget hkey

/-- A scope key opens a scope. -/
theorem exists_nested {d : Declarations} (h : Separated scope d) {key : String} {value : Value}
    (hget : d.get? key = some value) (hkey : scope key) : ∃ inner, value = .nested inner := by
  cases h with
  | intro _ _ nested _ => exact nested key value hget hkey

/-- Inner scopes have the shape too. -/
theorem of_nested {d inner : Declarations} (h : Separated scope d) {key : String}
    (hget : d.get? key = some (.nested inner)) : Separated scope inner := by
  cases h with
  | intro _ _ _ hinner => exact hinner key inner hget

/-- A key with a nested scope is a scope key. -/
theorem scope_of_nested {d inner : Declarations} (h : Separated scope d) {key : String}
    (hget : d.get? key = some (.nested inner)) : scope key := by
  refine Classical.byContradiction fun hkey => ?_
  obtain ⟨content, hcontent⟩ := h.exists_text hget hkey
  cases hcontent

/-- Objects of this shape hold no lists. -/
theorem get?_ne_list {d : Declarations} (h : Separated scope d) (key : String)
    (items : List Value) : d.get? key ≠ some (.list items) := by
  intro hget
  by_cases hkey : scope key
  · obtain ⟨inner, hinner⟩ := h.exists_nested hget hkey
    cases hinner
  · obtain ⟨content, hcontent⟩ := h.exists_text hget hkey
    cases hcontent

/-- The empty object has the shape. -/
theorem nil : Separated scope [] := by
  refine .intro List.nodup_nil ?_ ?_ ?_ <;> intro key value h <;> simp at h

/-- Objects of this shape are well formed. -/
theorem wellFormed {d : Declarations} (h : Separated scope d) : d.WellFormed := by
  induction h with
  | @intro d nodup text nested inner ih =>
      refine wellFormed_iff.mpr ⟨nodup, fun key value hget => ?_⟩
      by_cases hkey : scope key
      · obtain ⟨inner, rfl⟩ := nested key value hget hkey
        exact ih key inner hget
      · obtain ⟨content, rfl⟩ := text key value hget hkey
        trivial

/-- Putting an object under a scope key keeps the shape. -/
theorem wrap {d : Declarations} (h : Separated scope d) {key : String} (hkey : scope key) :
    Separated scope (d.wrap key) := by
  have hget : ∀ k value, (d.wrap key).get? k = some value → k = key ∧ value = .nested d := by
    intro k value hvalue
    have hmem := Assoc.mem_of_get? hvalue
    simpa [Declarations.wrap] using hmem
  refine .intro (by simp [Declarations.wrap]) ?_ ?_ ?_
  · intro k value hvalue hk
    obtain ⟨rfl, _⟩ := hget k value hvalue
    exact absurd hkey hk
  · intro k value hvalue _
    exact ⟨d, (hget k value hvalue).2⟩
  · intro k inner hvalue
    obtain ⟨_, heq⟩ := hget k _ hvalue
    cases heq
    exact h

/-- Storing a text under a key that opens no scope keeps the shape. -/
theorem insert_text {d : Declarations} (h : Separated scope d) {key : String}
    (hkey : ¬ scope key) (content : String) : Separated scope (d.insert key (.text content)) := by
  have hself : (d.insert key (.text content)).get? key = some (.text content) :=
    Assoc.get?_insert_self _ _ _
  have hother : ∀ k, key ≠ k → (d.insert key (.text content)).get? k = d.get? k :=
    fun k hk => Assoc.get?_insert_of_ne hk _ _
  refine .intro (Assoc.nodup_keys_insert h.keys_nodup _ _) ?_ ?_ ?_
  · intro k value hget hk
    by_cases heq : key = k
    · subst heq
      exact ⟨content, (Option.some.inj (hself.symm.trans hget)).symm⟩
    · exact h.exists_text (hother k heq ▸ hget) hk
  · intro k value hget hk
    have hne : key ≠ k := by
      rintro rfl
      exact hkey hk
    exact h.exists_nested (hother k hne ▸ hget) hk
  · intro k inner hget
    by_cases heq : key = k
    · subst heq
      cases hself.symm.trans hget
    · exact h.of_nested (hother k heq ▸ hget)

/-- Texts under keys that open no scope have the shape. -/
theorem ofTexts {pairs : List (String × String)} (h : ∀ pair ∈ pairs, ¬ scope pair.1) :
    Separated scope (Declarations.ofTexts pairs) := by
  have hfold : ∀ d, Separated scope d → Separated scope
      (pairs.foldl (fun d pair => d.insert pair.1 (.text pair.2)) d) := by
    induction pairs with
    | nil => exact fun d hd => hd
    | cons pair rest ih =>
        intro d hd
        exact ih (fun p hp => h p (List.mem_cons_of_mem _ hp)) _
          (hd.insert_text (h pair List.mem_cons_self) pair.2)
  exact hfold _ nil

/-- The scope under a key, or the empty object, has the shape. -/
theorem nested?_getD {d : Declarations} (h : Separated scope d) (key : String) :
    Separated scope ((d.nested? key).getD []) := by
  cases hget : d.nested? key with
  | none => exact nil
  | some inner => exact h.of_nested (nested?_eq_some_iff.mp hget)

/-- Merging keeps the shape. -/
theorem merge {target source : Declarations} (htarget : Separated scope target)
    (hsource : Separated scope source) : Separated scope (target.merge source) := by
  induction hsource generalizing target with
  | @intro source nodup text nested inner ih =>
      have hsource : Separated scope source := .intro nodup text nested inner
      refine .intro (nodup_keys_merge htarget.keys_nodup source) ?_ ?_ ?_
      · intro key value hget hkey
        cases hincoming : source.get? key with
        | none =>
            rw [get?_merge_of_none target nodup hincoming] at hget
            exact htarget.exists_text hget hkey
        | some incoming =>
            rw [get?_merge_of_some target nodup hincoming] at hget
            obtain ⟨content, rfl⟩ := text key incoming hincoming hkey
            exact ⟨content, (Option.some.inj hget).symm⟩
      · intro key value hget hkey
        cases hincoming : source.get? key with
        | none =>
            rw [get?_merge_of_none target nodup hincoming] at hget
            exact htarget.exists_nested hget hkey
        | some incoming =>
            rw [get?_merge_of_some target nodup hincoming] at hget
            obtain ⟨inner, rfl⟩ := nested key incoming hincoming hkey
            exact ⟨_, (Option.some.inj hget).symm⟩
      · intro key merged hget
        rw [← nested?_eq_some_iff] at hget
        cases hincoming : source.nested? key with
        | none =>
            rw [nested?_merge_of_none target nodup hincoming] at hget
            split at hget
            · cases hget
            · exact htarget.of_nested (nested?_eq_some_iff.mp hget)
        | some incoming =>
            rw [nested?_merge_of_some target nodup hincoming] at hget
            obtain rfl := Option.some.inj hget
            -- It was merged into the target's scope, or into an empty one.
            exact ih key incoming (nested?_eq_some_iff.mp hincoming) (htarget.nested?_getD key)

/-- Objects of this shape agree in kind under every key. -/
theorem compatible {first second third : Declarations} (hfirst : Separated scope first)
    (hsecond : Separated scope second) (hthird : Separated scope third) :
    Compatible first second third := by
  induction hfirst generalizing second third with
  | @intro first nodup text nested inner ih =>
      have hfirst : Separated scope first := .intro nodup text nested inner
      refine .intro ?_ ?_ ?_
      · intro key left middle right hleft
        exact absurd hleft (hfirst.get?_ne_list key left)
      · intro key left middle right hleft hmiddle _
        exact hsecond.exists_nested hmiddle (hfirst.scope_of_nested hleft)
      · intro key left middle right hleft hmiddle hright
        exact ih key left hleft (hsecond.of_nested hmiddle) (hthird.of_nested hright)

/-- Merges of objects of this shape can be regrouped. -/
theorem regroupable : Regroupable (Separated scope) :=
  ⟨nil, fun _ _ => merge, fun _ => wellFormed, fun _ _ _ => compatible⟩

/-- Merging any number of sources keeps the shape. -/
theorem mergeAll {target : Declarations} (htarget : Separated scope target)
    {sources : List Declarations} (h : ∀ source ∈ sources, Separated scope source) :
    Separated scope (target.mergeAll sources) :=
  regroupable.mergeAll htarget h

/-- Merging sources into one object first and then into the target, or one by one into the target,
is the same. -/
theorem merge_mergeAll {target : Declarations} (htarget : Separated scope target)
    {sources : List Declarations} (h : ∀ source ∈ sources, Separated scope source) :
    target.merge (Declarations.mergeAll [] sources) = target.mergeAll sources :=
  regroupable.merge_mergeAll htarget h

end Separated

end StyleProps.Declarations
