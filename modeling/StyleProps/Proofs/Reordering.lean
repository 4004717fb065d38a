import Mathlib.Data.List.Nodup
import StyleProps.Proofs.Paths

/-!
# Objects up to the order of keys

When two objects are the same but for the order of their entries, in the objects themselves and in
the scopes inside of them (`Reordering`). `Separated.reordering` says how to tell for objects whose
scope keys and property keys are told apart: they hold the same texts and the same keys at all paths
(`SameContents`).
-/

namespace StyleProps.Declarations

/-- Whether two objects are the same but for the order of entries, at any depth. -/
inductive Reordering : Declarations → Declarations → Prop where
  /-- Empty objects are the same. -/
  | nil : Reordering [] []
  /-- The same entry can stand in front of both. -/
  | cons (entry : String × Value) {d e : Declarations} :
      Reordering d e → Reordering (entry :: d) (entry :: e)
  /-- So can scopes under the same key, if they are the same in turn. -/
  | scope (key : String) {inner other d e : Declarations} :
      Reordering inner other → Reordering d e →
        Reordering ((key, .nested inner) :: d) ((key, .nested other) :: e)
  /-- Two entries can change places. -/
  | swap (first second : String × Value) (d : Declarations) :
      Reordering (first :: second :: d) (second :: first :: d)
  /-- Changes can follow each other. -/
  | trans {d e f : Declarations} : Reordering d e → Reordering e f → Reordering d f

namespace Reordering

/-- Entries in another order are a reordering. -/
theorem of_perm {d e : Declarations} (h : d.Perm e) : Reordering d e := by
  induction h with
  | nil => exact .nil
  | cons entry _ ih => exact .cons entry ih
  | swap first second d => exact .swap second first d
  | trans _ _ hfirst hsecond => exact .trans hfirst hsecond

/-- Whether two values are the same but for the order of entries in scopes. -/
inductive SameValue : Value → Value → Prop where
  | refl (value : Value) : SameValue value value
  | nested {inner other : Declarations} :
      Reordering inner other → SameValue (.nested inner) (.nested other)

/-- Exchanging each value for one that is the same but for the order of entries is a reordering. -/
theorem map_values {d : Declarations} (value : String × Value → Value)
    (h : ∀ entry ∈ d, SameValue entry.2 (value entry)) :
    Reordering d (d.map fun entry => (entry.1, value entry)) := by
  induction d with
  | nil => exact .nil
  | cons entry rest ih =>
      obtain ⟨key, stored⟩ := entry
      have hrest := ih fun other hother => h other (List.mem_cons_of_mem _ hother)
      have hfirst : SameValue stored (value (key, stored)) := h _ List.mem_cons_self
      rw [List.map_cons]
      generalize value (key, stored) = exchanged at hfirst
      cases hfirst with
      | refl => exact .cons (key, stored) hrest
      | nested hinner => exact .scope key hinner hrest

end Reordering

/-- With the values of another object under the same keys, entries are those of the other object, in
some order. -/
theorem perm_map_values {d e : Declarations} (hd : d.keys.Nodup) (he : e.keys.Nodup)
    (hkeys : ∀ key, key ∈ d.keys ↔ key ∈ e.keys) :
    (d.map fun entry => (entry.1, (e.get? entry.1).getD entry.2)).Perm e := by
  have hmap : (keys (d.map fun entry => (entry.1, (e.get? entry.1).getD entry.2))).Nodup := by
    have hsame : keys (d.map fun entry => (entry.1, (e.get? entry.1).getD entry.2)) = d.keys := by
      simp [keys, Assoc.keys]
    rw [hsame]
    exact hd
  rw [List.perm_ext_iff_of_nodup hmap.of_map he.of_map]
  rintro ⟨key, value⟩
  constructor
  · intro hmem
    obtain ⟨entry, hentry, heq⟩ := List.mem_map.mp hmem
    obtain ⟨rfl, rfl⟩ := Prod.mk.inj heq
    have hkey : entry.1 ∈ e.keys := (hkeys entry.1).mp (List.mem_map_of_mem hentry)
    obtain ⟨other, hother, hfst⟩ := List.mem_map.mp hkey
    have hget : e.get? entry.1 = some other.2 := Assoc.get?_of_mem he (hfst ▸ hother)
    rw [hget, Option.getD_some, ← hfst]
    exact hother
  · intro hmem
    have hget : e.get? key = some value := Assoc.get?_of_mem he hmem
    obtain ⟨entry, hentry, rfl⟩ :=
      List.mem_map.mp ((hkeys key).mpr (Assoc.mem_keys_of_mem hmem))
    refine List.mem_map.mpr ⟨entry, hentry, ?_⟩
    rw [hget, Option.getD_some]

/-! ## The same contents -/

/-- Whether two objects hold the same texts and the same keys at all paths. -/
structure SameContents (d e : Declarations) : Prop where
  texts : ∀ path, d.textAt? path = e.textAt? path
  keys : ∀ path key, key ∈ d.keysAt path ↔ key ∈ e.keysAt path

namespace SameContents

variable {d e : Declarations}

/-- Scopes under the same key have the same contents in turn. -/
theorem of_nested (h : SameContents d e) {key : String} {inner other : Declarations}
    (hd : d.get? key = some (.nested inner)) (he : e.get? key = some (.nested other)) :
    SameContents inner other where
  texts path := by
    by_cases hpath : path = []
    · rw [hpath]
      rfl
    · rw [← textAt?_of_nested hd hpath, ← textAt?_of_nested he hpath, h.texts]
  keys path below := by
    rw [← keysAt_of_nested hd, ← keysAt_of_nested he]
    exact h.keys (key :: path) below

/-- Texts under the same key are the same. -/
theorem text_eq (h : SameContents d e) {key content other : String}
    (hd : d.get? key = some (.text content)) (he : e.get? key = some (.text other)) :
    content = other := by
  have htext := h.texts [key]
  simpa only [textAt?, hd, he, Option.bind_some, Value.asText?, Option.some.injEq] using htext

end SameContents

namespace Separated

variable {scope : String → Prop} {d e : Declarations}

/-- Objects with the same contents are the same but for the order of entries. -/
theorem reordering (hd : Separated scope d) (he : Separated scope e) (h : SameContents d e) :
    Reordering d e := by
  induction hd generalizing e with
  | @intro d nodup text nested inner ih =>
      have hsame : ∀ key, key ∈ d.keys ↔ key ∈ e.keys := h.keys []
      -- The values are exchanged first, and then the entries are put into the other order.
      refine .trans (.map_values (fun entry => (e.get? entry.1).getD entry.2) ?_)
        (.of_perm (perm_map_values nodup he.keys_nodup hsame))
      rintro ⟨key, value⟩ hmem
      have hget : d.get? key = some value := Assoc.get?_of_mem nodup hmem
      obtain ⟨⟨k, other⟩, hother, rfl⟩ :=
        List.mem_map.mp ((hsame key).mp (Assoc.mem_keys_of_mem hmem))
      have hgetOther : e.get? k = some other := Assoc.get?_of_mem he.keys_nodup hother
      simp only [hgetOther, Option.getD_some]
      by_cases hkey : scope k
      · obtain ⟨object, rfl⟩ := nested k value hget hkey
        obtain ⟨object', rfl⟩ := he.exists_nested hgetOther hkey
        exact .nested (ih k object hget (he.of_nested hgetOther) (h.of_nested hget hgetOther))
      · obtain ⟨content, rfl⟩ := text k value hget hkey
        obtain ⟨content', rfl⟩ := he.exists_text hgetOther hkey
        obtain rfl := h.text_eq hget hgetOther
        exact .refl _

/-- Merging sources with the same contents into targets with the same contents gives objects with
the same contents. -/
theorem sameContents_merge {target other source next : Declarations}
    (htarget : Separated scope target) (hother : Separated scope other)
    (hsource : Separated scope source) (hnext : Separated scope next)
    (h : SameContents target other) (hmerged : SameContents source next) :
    SameContents (target.merge source) (other.merge next) where
  texts path := by
    rw [htarget.textAt?_merge hsource, hother.textAt?_merge hnext, h.texts, hmerged.texts]
  keys path key := by
    simp only [htarget.keysAt_merge hsource, hother.keysAt_merge hnext, List.mem_append,
      List.mem_filter, h.keys path key, hmerged.keys path key, decide_not]

end Separated

end StyleProps.Declarations
