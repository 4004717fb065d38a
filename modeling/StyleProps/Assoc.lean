/-!
# Association lists

Lists of key and value pairs in which a key is stored once. `get?` looks a key up, and `insert`
stores a value: a key that is present keeps its position, and a new key goes last. `keys_insert`
says this of the keys, `get?_insert_self` and `get?_insert_of_ne` say it of the values, and
`nodup_keys_insert` says that distinct keys stay distinct. `keys_insertAll` and `get?_insertAll` say
what any number of stores leave: the keys in the order of their first, the values of their last.
-/

namespace StyleProps.Assoc

variable {α : Type}

/-- The keys of an association list, in order. -/
def keys (entries : List (String × α)) : List String :=
  entries.map Prod.fst

/-- The value stored under a key, or `none` if the key is absent. -/
def get? (key : String) : List (String × α) → Option α
  | [] => none
  | (k, v) :: rest => if k = key then some v else get? key rest

/-- Stores a value under a key, in the key's own position or else at the end. -/
def insert (key : String) (value : α) : List (String × α) → List (String × α)
  | [] => [(key, value)]
  | (k, v) :: rest =>
      if k = key then (k, value) :: rest else (k, v) :: insert key value rest

/-- Stores every pair of a list, from left to right. -/
def insertAll (pairs entries : List (String × α)) : List (String × α) :=
  pairs.foldl (fun stored pair => insert pair.1 pair.2 stored) entries

@[simp] theorem keys_nil : keys ([] : List (String × α)) = [] := rfl

@[simp] theorem keys_cons (pair : String × α) (rest : List (String × α)) :
    keys (pair :: rest) = pair.1 :: keys rest := rfl

@[simp] theorem keys_append (front back : List (String × α)) :
    keys (front ++ back) = keys front ++ keys back :=
  List.map_append

@[simp] theorem get?_nil (key : String) : get? key ([] : List (String × α)) = none := rfl

/-- A key is found exactly when it is among the keys. -/
theorem get?_eq_none_iff {key : String} {entries : List (String × α)} :
    get? key entries = none ↔ key ∉ keys entries := by
  induction entries with
  | nil => simp
  | cons pair rest ih =>
      obtain ⟨k, v⟩ := pair
      by_cases h : k = key
      · simp [get?, h]
      · simp [get?, h, ih, Ne.symm h]

/-- A stored value is read back. -/
@[simp] theorem get?_insert_self (key : String) (value : α) (entries : List (String × α)) :
    get? key (insert key value entries) = some value := by
  induction entries with
  | nil => simp [insert, get?]
  | cons pair rest ih =>
      obtain ⟨k, v⟩ := pair
      by_cases h : k = key
      · simp [insert, get?, h]
      · simp [insert, get?, h, ih]

/-- Storing under one key leaves every other key alone. -/
theorem get?_insert_of_ne {key other : String} (h : key ≠ other) (value : α)
    (entries : List (String × α)) :
    get? other (insert key value entries) = get? other entries := by
  induction entries with
  | nil => simp [insert, get?, h]
  | cons pair rest ih =>
      obtain ⟨k, v⟩ := pair
      by_cases hk : k = key
      · have hko : k ≠ other := fun e => h (hk.symm.trans e)
        simp [insert, get?, hk, h]
      · simp [insert, get?, hk, ih]

/-- A new key is added after the others, and a present key changes no key's position. -/
theorem keys_insert (key : String) (value : α) (entries : List (String × α)) :
    keys (insert key value entries) =
      if key ∈ keys entries then keys entries else keys entries ++ [key] := by
  induction entries with
  | nil => simp [insert]
  | cons pair rest ih =>
      obtain ⟨k, v⟩ := pair
      by_cases h : k = key
      · simp [insert, h]
      · by_cases hm : key ∈ keys rest
        · simp [insert, h, ih, hm]
        · simp [insert, h, ih, hm, Ne.symm h]

/-- A new key goes last. -/
theorem insert_of_not_mem {key : String} {entries : List (String × α)} (h : key ∉ keys entries)
    (value : α) : insert key value entries = entries ++ [(key, value)] := by
  induction entries with
  | nil => rfl
  | cons pair rest ih =>
      rw [keys_cons, List.mem_cons, not_or] at h
      simp [insert, Ne.symm h.1, ih h.2]

/-- Distinct keys stay distinct. -/
theorem nodup_keys_insert {entries : List (String × α)} (h : (keys entries).Nodup)
    (key : String) (value : α) : (keys (insert key value entries)).Nodup := by
  rw [keys_insert]
  split
  · exact h
  · rename_i hm
    rw [List.nodup_append]
    refine ⟨h, by simp, ?_⟩
    intro a ha b hb hab
    have hb' : b = key := by simpa using hb
    exact hm (hb' ▸ hab ▸ ha)

/-- Distinct keys stay distinct under any number of stores. -/
theorem nodup_keys_insertAll {entries : List (String × α)} (h : (keys entries).Nodup)
    (pairs : List (String × α)) : (keys (insertAll pairs entries)).Nodup := by
  induction pairs generalizing entries with
  | nil => exact h
  | cons pair rest ih => exact ih (nodup_keys_insert h pair.1 pair.2)

/-- With other values, what is found is the other value. -/
theorem get?_map {β : Type} (f : α → β) (key : String) (entries : List (String × α)) :
    get? key (entries.map fun pair => (pair.1, f pair.2)) = (get? key entries).map f := by
  induction entries with
  | nil => rfl
  | cons pair rest ih =>
      obtain ⟨k, v⟩ := pair
      by_cases h : k = key
      · simp [get?, h]
      · simp [get?, h, ih]

/-- What is found in two lists is found in the first of them that has the key. -/
theorem get?_append (key : String) (front back : List (String × α)) :
    get? key (front ++ back) = (get? key front).or (get? key back) := by
  induction front with
  | nil => rfl
  | cons pair rest ih =>
      obtain ⟨k, v⟩ := pair
      by_cases h : k = key
      · simp [get?, h]
      · simp [get?, h, ih]

/-- After any number of stores, the last value that was stored under a key is found. -/
theorem get?_insertAll (key : String) (pairs entries : List (String × α)) :
    get? key (insertAll pairs entries) = (get? key pairs.reverse).or (get? key entries) := by
  induction pairs generalizing entries with
  | nil => rfl
  | cons pair rest ih =>
      obtain ⟨k, v⟩ := pair
      have hstep : get? key (insertAll ((k, v) :: rest) entries) =
          (get? key rest.reverse).or (get? key (insert k v entries)) := ih _
      rw [hstep, List.reverse_cons, get?_append, Option.or_assoc]
      by_cases h : k = key
      · subst h
        simp [get?]
      · simp [get?, h, get?_insert_of_ne h]

/-- After any number of stores, the new keys follow the old ones in the order in which they were
first stored. -/
theorem keys_insertAll (pairs entries : List (String × α)) :
    keys (insertAll pairs entries) =
      keys entries ++ ((keys pairs).removeAll (keys entries)).eraseDups := by
  induction pairs generalizing entries with
  | nil => simp [insertAll, List.removeAll]
  | cons pair rest ih =>
      obtain ⟨k, v⟩ := pair
      have hstep : keys (insertAll ((k, v) :: rest) entries) = keys (insert k v entries) ++
          ((keys rest).removeAll (keys (insert k v entries))).eraseDups := ih _
      rw [hstep, keys_insert, keys_cons]
      by_cases h : k ∈ keys entries
      · simp [h, List.removeAll]
      · have hswap (other : String) : (!decide (other ∈ keys entries) && !decide (other = k)) =
            (!other == k && !decide (other ∈ keys entries)) := by
          rw [Bool.and_comm]
          rfl
        simp [h, hswap, List.removeAll, List.eraseDups_cons, List.filter_filter]

/-- A list without repetitions is left alone. -/
theorem eraseDups_of_nodup {keys : List String} (h : keys.Nodup) : keys.eraseDups = keys := by
  induction keys with
  | nil => rfl
  | cons key rest ih =>
      obtain ⟨hkey, hrest⟩ := List.nodup_cons.mp h
      have hfilter : (rest.filter fun k => !k == key) = rest := by
        refine List.filter_eq_self.mpr fun k hk => ?_
        have hne : k ≠ key := by
          rintro rfl
          exact hkey hk
        simpa using hne
      rw [List.eraseDups_cons, hfilter, ih hrest]

/-- After storing pairs with distinct keys, those of them that are new follow the old ones. -/
theorem keys_insertAll_of_nodup {pairs : List (String × α)} (h : (keys pairs).Nodup)
    (entries : List (String × α)) :
    keys (insertAll pairs entries) =
      keys entries ++ (keys pairs).filter fun key => key ∉ keys entries := by
  have hnew : (keys pairs).removeAll (keys entries) =
      (keys pairs).filter fun key => key ∉ keys entries := by
    simp [List.removeAll]
  rw [keys_insertAll, hnew, eraseDups_of_nodup (h.sublist List.filter_sublist)]

/-- Pairs with distinct keys, none of which is stored yet, are added at the end. -/
theorem insertAll_of_nodup {pairs entries : List (String × α)}
    (h : (keys (entries ++ pairs)).Nodup) : insertAll pairs entries = entries ++ pairs := by
  induction pairs generalizing entries with
  | nil => exact (List.append_nil entries).symm
  | cons pair rest ih =>
      obtain ⟨k, v⟩ := pair
      have hnew : k ∉ keys entries := by
        rw [keys, List.map_append, List.nodup_append] at h
        exact fun hmem => h.2.2 k hmem k List.mem_cons_self rfl
      rw [List.append_cons] at h ⊢
      rw [← insert_of_not_mem hnew v] at h ⊢
      exact ih h

/-- What is found is among the pairs. -/
theorem mem_of_get? {key : String} {value : α} {entries : List (String × α)}
    (h : get? key entries = some value) : (key, value) ∈ entries := by
  induction entries with
  | nil => simp at h
  | cons pair rest ih =>
      obtain ⟨k, v⟩ := pair
      by_cases hk : k = key
      · simp only [get?, hk, if_true, Option.some.injEq] at h
        simp [hk, h]
      · simp only [get?, hk, if_false] at h
        exact List.mem_cons_of_mem _ (ih h)

/-- The key of a pair is among the keys. -/
theorem mem_keys_of_mem {key : String} {value : α} {entries : List (String × α)}
    (h : (key, value) ∈ entries) : key ∈ keys entries :=
  List.mem_map_of_mem h

/-- A key that is found is among the keys. -/
theorem mem_keys_of_get? {key : String} {value : α} {entries : List (String × α)}
    (h : get? key entries = some value) : key ∈ keys entries :=
  mem_keys_of_mem (mem_of_get? h)

/-- With distinct keys, every pair is found under its key. -/
theorem get?_of_mem {key : String} {value : α} {entries : List (String × α)}
    (hnodup : (keys entries).Nodup) (h : (key, value) ∈ entries) :
    get? key entries = some value := by
  induction entries with
  | nil => simp at h
  | cons pair rest ih =>
      obtain ⟨k, v⟩ := pair
      rw [keys_cons, List.nodup_cons] at hnodup
      rcases List.mem_cons.mp h with heq | hrest
      · cases heq
        simp [get?]
      · have hk : k ≠ key := by
          rintro rfl
          exact hnodup.1 (mem_keys_of_mem hrest)
        simp only [get?, hk, if_false]
        exact ih hnodup.2 hrest

/-- With distinct keys, a pair that is found stands between pairs with other keys. -/
theorem exists_append_of_get? {key : String} {value : α} {entries : List (String × α)}
    (hnodup : (keys entries).Nodup) (h : get? key entries = some value) :
    ∃ front back, entries = front ++ (key, value) :: back ∧ key ∉ keys front ∧ key ∉ keys back := by
  obtain ⟨front, back, rfl⟩ := List.append_of_mem (mem_of_get? h)
  have hsplit : (keys front ++ key :: keys back).Nodup := by
    simpa only [keys, List.map_append, List.map_cons] using hnodup
  obtain ⟨_, hrest, hapart⟩ := List.nodup_append.mp hsplit
  refine ⟨front, back, rfl, fun hfront => ?_, (List.nodup_cons.mp hrest).1⟩
  exact hapart key hfront key List.mem_cons_self rfl

/-- Two lists with the same distinct keys in the same order and the same values are the same. -/
theorem ext_of_get? {entries others : List (String × α)} (hkeys : keys entries = keys others)
    (hnodup : (keys entries).Nodup) (hget : ∀ key, get? key entries = get? key others) :
    entries = others := by
  induction entries generalizing others with
  | nil =>
      cases others with
      | nil => rfl
      | cons pair rest => simp at hkeys
  | cons pair rest ih =>
      cases others with
      | nil => simp at hkeys
      | cons other tail =>
          obtain ⟨k, v⟩ := pair
          obtain ⟨k', w⟩ := other
          simp only [keys_cons, List.cons.injEq] at hkeys
          obtain ⟨rfl, hkeys⟩ := hkeys
          rw [keys_cons, List.nodup_cons] at hnodup
          have hvalue : v = w := by simpa [get?] using hget k
          subst hvalue
          have htail : rest = tail := by
            refine ih hkeys hnodup.2 fun key => ?_
            by_cases hk : k = key
            · subst hk
              rw [get?_eq_none_iff.mpr hnodup.1, get?_eq_none_iff.mpr (hkeys ▸ hnodup.1)]
            · simpa [get?, hk] using hget key
          rw [htail]

end StyleProps.Assoc
