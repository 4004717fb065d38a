import Mathlib.Data.List.Sort
import StyleProps.Proofs.JsonDocuments
import StyleProps.Json.Sorted
import StyleProps.Assoc

/-!
# Sorted JSON values

What sorting the members of all objects in a value comes to. `SortsTo` says it without saying how:
the names of an object are those of the value, each once and in their order, and the value under a
name is that of the last member with this name. `sortsTo_sorted` is this law of `sorted`, which no
other value fulfils (`SortsTo.eq_sorted`), and `sorted_sorted` says that a sorted value is left as
it is. Sorting adds neither depth nor numbers.
-/

namespace StyleProps.Json

/-- Whether a value is another one with sorted members: each name of an object stands once, in the
order of the names, with the sorted value of the last member of this name. -/
inductive SortsTo : Json → Json → Prop where
  | null : SortsTo .null .null
  | bool (b : Bool) : SortsTo (.bool b) (.bool b)
  | number (n : Number) : SortsTo (.number n) (.number n)
  | string (text : String) : SortsTo (.string text) (.string text)
  | array {items others : List Json} (hlength : others.length = items.length)
      (hitems : ∀ (i : Nat) (item other : Json), items[i]? = some item →
        others[i]? = some other → SortsTo item other) : SortsTo (.array items) (.array others)
  | object {members others : List (String × Json)}
      (hsorted : (Assoc.keys others).Pairwise (· < ·))
      (hnames : ∀ name, name ∈ Assoc.keys others ↔ name ∈ Assoc.keys members)
      (hvalues : ∀ (name : String) (value other : Json),
        Assoc.get? name members.reverse = some value → Assoc.get? name others = some other →
          SortsTo value other) : SortsTo (.object members) (.object others)

/-! ## Storing one member -/

/-- A stored member is found. -/
theorem get?_insertSorted_self (name : String) (value : Json) (stored : List (String × Json)) :
    Assoc.get? name (insertSorted name value stored) = some value := by
  induction stored with
  | nil => simp [insertSorted, Assoc.get?]
  | cons member rest ih =>
      obtain ⟨other, held⟩ := member
      rw [insertSorted]
      split
      · simp [Assoc.get?]
      · split
        · simp [Assoc.get?]
        · next hne => simp [Assoc.get?, Ne.symm hne, ih]

/-- Storing a member leaves every other name alone. -/
theorem get?_insertSorted_of_ne {name other : String} (h : name ≠ other) (value : Json)
    (stored : List (String × Json)) :
    Assoc.get? other (insertSorted name value stored) = Assoc.get? other stored := by
  induction stored with
  | nil => simp [insertSorted, Assoc.get?, h]
  | cons member rest ih =>
      obtain ⟨held, kept⟩ := member
      rw [insertSorted]
      split
      · simp [Assoc.get?, h]
      · split
        · next heq => simp [Assoc.get?, ← heq, h]
        · simp [Assoc.get?, ih]

/-- The names after storing a member are those before and its own. -/
theorem mem_keys_insertSorted {name other : String} {value : Json}
    {stored : List (String × Json)} :
    other ∈ Assoc.keys (insertSorted name value stored) ↔
      other = name ∨ other ∈ Assoc.keys stored := by
  by_cases h : name = other
  · subst h
    simp [Assoc.mem_keys_of_get? (get?_insertSorted_self name value stored)]
  · rw [← Decidable.not_iff_not, ← Assoc.get?_eq_none_iff, get?_insertSorted_of_ne h,
      Assoc.get?_eq_none_iff]
    simp [Ne.symm h]

/-- Storing a member keeps the names sorted. -/
theorem pairwise_insertSorted {stored : List (String × Json)}
    (h : (Assoc.keys stored).Pairwise (· < ·)) (name : String) (value : Json) :
    (Assoc.keys (insertSorted name value stored)).Pairwise (· < ·) := by
  induction stored with
  | nil => simp [insertSorted]
  | cons member rest ih =>
      obtain ⟨other, held⟩ := member
      rw [Assoc.keys_cons, List.pairwise_cons] at h
      rw [insertSorted]
      split
      · next hlt =>
          simp only [Assoc.keys_cons, List.pairwise_cons, List.forall_mem_cons]
          exact ⟨⟨hlt, fun later hlater => String.lt_trans hlt (h.1 later hlater)⟩, h⟩
      · next hnot =>
          split
          · next heq => rw [heq]; exact List.pairwise_cons.mpr h
          · next hne =>
              have hlt : other < name :=
                Std.lt_of_le_of_ne (String.not_lt.mp hnot) (Ne.symm hne)
              rw [Assoc.keys_cons, List.pairwise_cons]
              refine ⟨fun later hlater => ?_, ih h.2⟩
              rcases mem_keys_insertSorted.mp hlater with rfl | hrest
              · exact hlt
              · exact h.1 later hrest

/-- A member whose name comes after all others goes last. -/
theorem insertSorted_of_forall_lt {name : String} {stored : List (String × Json)}
    (h : ∀ other ∈ Assoc.keys stored, other < name) (value : Json) :
    insertSorted name value stored = stored ++ [(name, value)] := by
  induction stored with
  | nil => rfl
  | cons member rest ih =>
      obtain ⟨other, held⟩ := member
      rw [Assoc.keys_cons, List.forall_mem_cons] at h
      have hnot : ¬ name < other := fun hlt => String.lt_irrefl _ (String.lt_trans hlt h.1)
      have hne : name ≠ other := fun heq => String.lt_irrefl other (heq ▸ h.1)
      rw [insertSorted, if_neg hnot, if_neg hne, ih h.2]
      rfl

/-! ## Sorting all members -/

/-- The items of a sorted array are the sorted items. -/
theorem sortedItems_eq_map (items : List Json) : sortedItems items = items.map sorted := by
  induction items with
  | nil => rfl
  | cons item rest ih => rw [sortedItems, ih, List.map_cons]

-- Members are stored one after another, so each of these inductions is over any members that are
-- stored already.
/-- The names of sorted members are sorted. -/
theorem pairwise_sortedMembers (members stored : List (String × Json))
    (h : (Assoc.keys stored).Pairwise (· < ·)) :
    (Assoc.keys (sortedMembers stored members)).Pairwise (· < ·) := by
  induction members generalizing stored with
  | nil => exact h
  | cons member rest ih => exact ih _ (pairwise_insertSorted h member.1 (sorted member.2))

/-- What is found under a name is the sorted value of the last member with this name. -/
theorem get?_sortedMembers (name : String) (members stored : List (String × Json)) :
    Assoc.get? name (sortedMembers stored members) =
      ((Assoc.get? name members.reverse).map sorted).or (Assoc.get? name stored) := by
  induction members generalizing stored with
  | nil => rfl
  | cons member rest ih =>
      obtain ⟨other, value⟩ := member
      rw [sortedMembers, ih, List.reverse_cons, Assoc.get?_append, Option.map_or, Option.or_assoc]
      by_cases h : other = name
      · subst h
        simp [get?_insertSorted_self, Assoc.get?]
      · simp [get?_insertSorted_of_ne h, Assoc.get?, h]

/-- Every sorted member has the sorted value of a member. -/
theorem exists_of_mem_sortedMembers {members : List (String × Json)} {member : String × Json}
    (h : member ∈ sortedMembers [] members) : ∃ other ∈ members, member.2 = sorted other.2 := by
  have hnodup : (Assoc.keys (sortedMembers [] members)).Nodup :=
    (pairwise_sortedMembers members [] .nil).nodup
  have hfound := Assoc.get?_of_mem hnodup h
  rw [get?_sortedMembers, Assoc.get?_nil, Option.or_none] at hfound
  obtain ⟨value, hvalue, hsorted⟩ := Option.map_eq_some_iff.mp hfound
  exact ⟨_, List.mem_reverse.mp (Assoc.mem_of_get? hvalue), hsorted.symm⟩

/-- Members in the order of their names, with sorted values, are stored as they are. -/
theorem sortedMembers_of_pairwise {members stored : List (String × Json)}
    (h : (Assoc.keys (stored ++ members)).Pairwise (· < ·))
    (hvalues : ∀ member ∈ members, member.2.sorted = member.2) :
    sortedMembers stored members = stored ++ members := by
  induction members generalizing stored with
  | nil => exact (List.append_nil stored).symm
  | cons member rest ih =>
      obtain ⟨name, value⟩ := member
      rw [List.forall_mem_cons] at hvalues
      have hlast : ∀ other ∈ Assoc.keys stored, other < name := by
        rw [Assoc.keys, List.map_append, List.pairwise_append] at h
        exact fun other hmem => h.2.2 other hmem name List.mem_cons_self
      have hvalue : value.sorted = value := hvalues.1
      rw [List.append_cons] at h
      rw [sortedMembers, hvalue, insertSorted_of_forall_lt hlast, ih h hvalues.2]
      exact (List.append_cons ..).symm

/-- Sorting sorts. -/
theorem sortsTo_sorted (json : Json) : json.SortsTo json.sorted := by
  induction json using tree_induction with
  | null => exact .null
  | bool b => exact .bool b
  | number n => exact .number n
  | string text => exact .string text
  | array items ih =>
      rw [sorted, sortedItems_eq_map]
      refine .array (List.length_map _) fun i item other hitem hother => ?_
      rw [List.getElem?_map, hitem, Option.map_some] at hother
      exact Option.some.inj hother ▸ ih item (List.mem_of_getElem? hitem)
  | object members ih =>
      rw [sorted]
      refine .object (pairwise_sortedMembers members [] .nil) (fun name => ?_)
        fun name value other hvalue hother => ?_
      · rw [← Decidable.not_iff_not, ← Assoc.get?_eq_none_iff, get?_sortedMembers,
          Assoc.get?_nil, Option.or_none, Option.map_eq_none_iff, Assoc.get?_eq_none_iff]
        simp [Assoc.keys]
      · rw [get?_sortedMembers, hvalue, Assoc.get?_nil, Option.or_none, Option.map_some] at hother
        have hmem := List.mem_reverse.mp (Assoc.mem_of_get? hvalue)
        exact Option.some.inj hother ▸ ih (name, value) hmem

/-- A value with sorted members is the sorted value. -/
theorem SortsTo.eq_sorted {json other : Json} (h : json.SortsTo other) : other = json.sorted := by
  induction json using tree_induction generalizing other with
  | null | bool _ | number _ | string _ => cases h; rfl
  | array items ih =>
      cases h with | @array _ others hlength hitems
      rw [sorted, sortedItems_eq_map]
      refine congrArg Json.array (List.ext_getElem (by simp [hlength]) fun i hi hmap => ?_)
      have hitem : i < items.length := hlength ▸ hi
      rw [List.getElem_map]
      exact ih items[i] (List.getElem_mem hitem)
        (hitems i _ _ (List.getElem?_eq_getElem hitem) (List.getElem?_eq_getElem hi))
  | object members ih =>
      cases h with | @object _ others hsorted hnames hvalues
      have hself := sortsTo_sorted (.object members)
      rw [sorted] at hself ⊢
      cases hself with | object hsorted' hnames' _
      -- Both have the names of the members in their order, so they could differ in values only.
      have hkeys : Assoc.keys others = Assoc.keys (sortedMembers [] members) :=
        hsorted.eq_of_mem_iff hsorted' fun name => (hnames name).trans (hnames' name).symm
      refine congrArg Json.object (Assoc.ext_of_get? hkeys hsorted.nodup fun name => ?_)
      have hnone : Assoc.get? name others = none ↔ Assoc.get? name members.reverse = none := by
        rw [Assoc.get?_eq_none_iff, Assoc.get?_eq_none_iff, hnames]
        simp [Assoc.keys]
      rw [get?_sortedMembers, Assoc.get?_nil, Option.or_none]
      cases hvalue : Assoc.get? name members.reverse with
      | none => rw [hnone.mpr hvalue, Option.map_none]
      | some value =>
          have hne : Assoc.get? name others ≠ none := by simp [hnone, hvalue]
          obtain ⟨other, hother⟩ := Option.ne_none_iff_exists'.mp hne
          have hmem := List.mem_reverse.mp (Assoc.mem_of_get? hvalue)
          rw [hother, Option.map_some,
            ih (name, value) hmem (hvalues name value other hvalue hother)]

/-- A sorted value is left as it is. -/
theorem sorted_sorted (json : Json) : json.sorted.sorted = json.sorted := by
  induction json using tree_induction with
  | null | bool _ | number _ | string _ => rfl
  | array items ih =>
      simp only [sorted, sortedItems_eq_map, List.map_map]
      exact congrArg Json.array (List.map_congr_left ih)
  | object members ih =>
      have hvalues : ∀ member ∈ sortedMembers [] members, member.2.sorted = member.2 := by
        intro member hmem
        obtain ⟨other, hother, hsorted⟩ := exists_of_mem_sortedMembers hmem
        rw [hsorted, ih other hother]
      have hsorted := pairwise_sortedMembers members [] .nil
      simp only [sorted]
      rw [sortedMembers_of_pairwise hsorted hvalues, List.nil_append]

/-! ## Depth and numbers -/

/-- Items are as deep as the deepest of them. -/
theorem depthItems_le_iff {items : List Json} {n : Nat} :
    depthItems items ≤ n ↔ ∀ item ∈ items, item.depth ≤ n := by
  induction items with
  | nil => simp [depthItems]
  | cons item rest ih => rw [depthItems, Nat.max_le, ih, List.forall_mem_cons]

/-- Members are as deep as the deepest of their values. -/
theorem depthMembers_le_iff {members : List (String × Json)} {n : Nat} :
    depthMembers members ≤ n ↔ ∀ member ∈ members, member.2.depth ≤ n := by
  induction members with
  | nil => simp [depthMembers]
  | cons member rest ih => rw [depthMembers, Nat.max_le, ih, List.forall_mem_cons]

/-- Sorting makes no value deeper. -/
theorem depth_sorted_le (json : Json) : json.sorted.depth ≤ json.depth := by
  induction json using tree_induction with
  | null | bool _ | number _ | string _ => exact Nat.le_refl _
  | array items ih =>
      rw [sorted, depth, depth, sortedItems_eq_map, Nat.add_le_add_iff_right, depthItems_le_iff,
        List.forall_mem_map]
      exact fun item hitem =>
        (ih item hitem).trans (depthItems_le_iff.mp (Nat.le_refl _) item hitem)
  | object members ih =>
      rw [sorted, depth, depth, Nat.add_le_add_iff_right, depthMembers_le_iff]
      intro member hmem
      obtain ⟨other, hother, hsorted⟩ := exists_of_mem_sortedMembers hmem
      rw [hsorted]
      exact (ih other hother).trans (depthMembers_le_iff.mp (Nat.le_refl _) other hother)

/-- The numbers in an array are those in its items. -/
theorem number_mem_tokens_array {items : List Json} {n : Number} :
    .number n ∈ tokens (.array items) ↔ ∃ item ∈ items, .number n ∈ tokens item := by
  have hmore (items : List Json) :
      .number n ∈ moreItemTokens items ↔ ∃ item ∈ items, .number n ∈ tokens item := by
    induction items with
    | nil => simp [moreItemTokens]
    | cons item rest ih => simp [moreItemTokens, ih]
  cases items with
  | nil => simp [tokens, itemTokens]
  | cons item rest => simp [tokens, itemTokens, hmore]

/-- The numbers in an object are those in the values of its members. -/
theorem number_mem_tokens_object {members : List (String × Json)} {n : Number} :
    .number n ∈ tokens (.object members) ↔ ∃ member ∈ members, .number n ∈ tokens member.2 := by
  have hmore (members : List (String × Json)) :
      .number n ∈ moreMemberTokens members ↔ ∃ member ∈ members, .number n ∈ tokens member.2 := by
    induction members with
    | nil => simp [moreMemberTokens]
    | cons member rest ih => simp [moreMemberTokens, ih]
  cases members with
  | nil => simp [tokens, memberTokens]
  | cons member rest => simp [tokens, memberTokens, hmore]

/-- Sorting adds no number. -/
theorem number_mem_tokens_of_sorted {json : Json} {n : Number}
    (h : .number n ∈ tokens json.sorted) : .number n ∈ tokens json := by
  induction json using tree_induction with
  | null | bool _ | number _ | string _ => exact h
  | array items ih =>
      rw [sorted, sortedItems_eq_map, number_mem_tokens_array] at h
      obtain ⟨other, hother, hn⟩ := h
      obtain ⟨item, hitem, rfl⟩ := List.mem_map.mp hother
      exact number_mem_tokens_array.mpr ⟨item, hitem, ih item hitem hn⟩
  | object members ih =>
      rw [sorted, number_mem_tokens_object] at h
      obtain ⟨member, hmem, hn⟩ := h
      obtain ⟨other, hother, hsorted⟩ := exists_of_mem_sortedMembers hmem
      exact number_mem_tokens_object.mpr ⟨other, hother, ih other hother (hsorted ▸ hn)⟩

end StyleProps.Json
