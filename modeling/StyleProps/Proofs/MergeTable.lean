import StyleProps.Proofs.Merge

/-!
# The table of a merge

What becomes of a key under a merge is a matter of kinds: that of the incoming value, and for scopes
and lists that of the stored one. `Merged` is this table, read at every depth and without the
function that merges. `merged_iff_eq_merge` says that the merge of two objects meets the table and
that no other object does, and with it what a merge keeps: distinct keys, every key of both objects,
and the positions of the target's keys.
-/

namespace StyleProps

/-- The kinds of values that a merge tells apart. -/
inductive Kind where
  /-- A text or a number. It replaces what is stored. -/
  | scalar
  /-- A sequence of values. -/
  | list
  /-- A nested scope. -/
  | nested
deriving DecidableEq, Repr

/-- The kind of a value. -/
def Value.kind : Value → Kind
  | .text _ => .scalar
  | .number _ => .scalar
  | .list _ => .list
  | .nested _ => .nested

namespace Declarations

open Value

/-- The items stored under a key, if a list is stored there. -/
def list? (d : Declarations) (key : String) : Option (List Value) :=
  (d.get? key).bind Value.asList?

/-- Whether an object is what a source merged into a target should come to. The keys are those of
the target in their order, and then the new ones of the source in theirs. A key that the source
lacks keeps its value. An incoming scope is merged into the scope that is stored, or into an empty
one, as the same table says. Incoming items follow those that are stored, if a list is stored. A
scalar replaces whatever is stored. -/
inductive Merged : Declarations → Declarations → Declarations → Prop where
  | intro {target source result : Declarations}
      (keys : result.keys = target.keys ++ source.keys.filter fun key => key ∉ target.keys)
      (kept : ∀ key, source.get? key = none → result.get? key = target.get? key)
      (scope : ∀ key inner, source.get? key = some (.nested inner) →
        ∃ merged, result.get? key = some (.nested merged))
      (inner : ∀ key inner merged, source.get? key = some (.nested inner) →
        result.get? key = some (.nested merged) →
        Merged ((target.nested? key).getD []) inner merged)
      (list : ∀ key items, source.get? key = some (.list items) →
        result.get? key = some (.list ((target.list? key).getD [] ++ items)))
      (scalar : ∀ key value, source.get? key = some value → value.kind = .scalar →
        result.get? key = some value) :
      Merged target source result

/-- An incoming scalar replaces what is stored. -/
theorem combine_of_scalar {incoming : Value} (h : incoming.kind = .scalar)
    (stored : Option Value) : combine stored incoming = incoming := by
  cases incoming with
  | text _ | number _ => rfl
  | list _ | nested _ => cases h

/-- A merge meets the table. -/
theorem merged_merge {target source : Declarations} (htarget : target.WellFormed)
    (hsource : source.WellFormed) : Merged target source (target.merge source) := by
  induction source using nested_induction generalizing target with
  | step source ih =>
      refine .intro (keys_merge target hsource.nodup)
        (fun key hnone => get?_merge_of_none target hsource.nodup hnone) ?scope ?inner ?list ?scalar
      case scope =>
        intro key inner hincoming
        exact ⟨_, get?_merge_of_some target hsource.nodup hincoming⟩
      case inner =>
        intro key inner merged hincoming hget
        rw [get?_merge_of_some target hsource.nodup hincoming, combine_nested] at hget
        obtain rfl : ((target.nested? key).getD []).merge inner = merged := by
          simpa only [Option.some.injEq, Value.nested.injEq] using hget
        exact ih key inner hincoming (htarget.nested?_getD key) (hsource.nested hincoming)
      case list =>
        intro key items hincoming
        exact get?_merge_of_some target hsource.nodup hincoming
      case scalar =>
        intro key value hincoming hkind
        rw [get?_merge_of_some target hsource.nodup hincoming, combine_of_scalar hkind]

/-- Only the merge meets the table. -/
theorem Merged.eq_merge {target source result : Declarations} (h : Merged target source result)
    (htarget : target.WellFormed) (hsource : source.WellFormed) :
    result = target.merge source := by
  induction h with
  | @intro target source result keys kept scope inner list scalar ih =>
      have hkeys : result.keys = (target.merge source).keys :=
        keys.trans (keys_merge target hsource.nodup).symm
      have hnodup : result.keys.Nodup := hkeys ▸ nodup_keys_merge htarget.nodup source
      refine Assoc.ext_of_get? hkeys hnodup fun key => ?_
      show result.get? key = (target.merge source).get? key
      cases hincoming : source.get? key with
      | none => rw [kept key hincoming, get?_merge_of_none target hsource.nodup hincoming]
      | some incoming =>
          rw [get?_merge_of_some target hsource.nodup hincoming]
          cases incoming with
          | text content => exact scalar key _ hincoming rfl
          | number x => exact scalar key _ hincoming rfl
          | list items => exact list key items hincoming
          | nested entries =>
              obtain ⟨merged, hget⟩ := scope key entries hincoming
              have heq : merged = ((target.nested? key).getD []).merge entries :=
                ih key entries merged hincoming hget (htarget.nested?_getD key)
                  (hsource.nested hincoming)
              rw [hget, heq, combine_nested]

/-- A key is in a merge exactly if it is in one of the objects. -/
theorem mem_keys_merge {target source : Declarations} (h : source.keys.Nodup) {key : String} :
    key ∈ (target.merge source).keys ↔ key ∈ target.keys ∨ key ∈ source.keys := by
  rw [keys_merge target h, List.mem_append, List.mem_filter, decide_eq_true_iff]
  by_cases hkey : key ∈ target.keys <;> simp [hkey]

/-- The merge of two objects is the one object that meets the table at every depth. No object inside
it stores a key twice, no key of the two gets lost, the keys of the target keep their positions
whatever becomes of their values, and merging with the empty object on either side changes
nothing. -/
theorem merged_iff_eq_merge {target source : Declarations} (htarget : target.WellFormed)
    (hsource : source.WellFormed) :
    (∀ result, Merged target source result ↔ result = target.merge source) ∧
      (target.merge source).WellFormed ∧
      (∀ key, key ∈ (target.merge source).keys ↔ key ∈ target.keys ∨ key ∈ source.keys) ∧
      (∀ (i : Nat) (key : String), target.keys[i]? = some key →
        (target.merge source).keys[i]? = some key) ∧
      merge empty target = target ∧ merge target empty = target := by
  refine ⟨fun result => ⟨fun h => h.eq_merge htarget hsource, ?meets⟩, htarget.merge hsource,
    fun key => mem_keys_merge hsource.nodup, ?position, nil_merge htarget, merge_nil target⟩
  case meets =>
    rintro rfl
    exact merged_merge htarget hsource
  case position =>
    intro i key hkey
    obtain ⟨hlt, _⟩ := List.getElem?_eq_some_iff.mp hkey
    rw [keys_merge target hsource.nodup, List.getElem?_append_left hlt, hkey]

/-- Every key changes the kind of its value or extends a scope or a list, two scopes deep. -/
theorem merged_iff_eq_merge_kinds :
    let target : Declarations :=
      [("a", .text "1"), ("b", .nested [("x", .list [.text "p"]), ("y", .nested [])]),
        ("c", .list [.text "2"])]
    let source : Declarations :=
      [("c", .nested [("z", .text "3")]), ("d", .list [.text "4"]),
        ("b", .nested [("y", .text "5"), ("x", .list [.text "q"])]), ("a", .list [])]
    target.WellFormed ∧ source.WellFormed ∧
      Merged target source
        [("a", .list []), ("b", .nested [("x", .list [.text "p", .text "q"]), ("y", .text "5")]),
          ("c", .nested [("z", .text "3")]), ("d", .list [.text "4"])] := by
  intro target source
  have htarget : target.WellFormed := by
    simp [target, WellFormed, Value.WellFormed, Value.WellFormedItems, Value.WellFormedEntries]
  have hsource : source.WellFormed := by
    simp [source, WellFormed, Value.WellFormed, Value.WellFormedItems, Value.WellFormedEntries]
  exact ⟨htarget, hsource, ((merged_iff_eq_merge htarget hsource).1 _).mpr rfl⟩

end Declarations

end StyleProps
