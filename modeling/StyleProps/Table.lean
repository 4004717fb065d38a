import StyleProps.Assoc

/-!
# Ordered tables

A `Table` maps names to values and lists its names in the order of their first registration.
Registering a name again replaces its value and keeps its position. That names are distinct is
part of the type. `Table.Records` says what any number of registrations leaves.
-/

namespace StyleProps

/-- A map from names to values that remembers the order in which names were first registered. -/
structure Table (α : Type) where
  /-- The entries, in order of first registration. -/
  entries : List (String × α)
  /-- No name is listed twice. -/
  nodup : (Assoc.keys entries).Nodup

namespace Table

variable {α : Type}

/-- The table without entries. -/
def empty : Table α := ⟨[], by simp⟩

instance : Inhabited (Table α) := ⟨empty⟩

/-- Two tables with the same entries in the same order are the same table. -/
@[ext] theorem ext {a b : Table α} (h : a.entries = b.entries) : a = b := by
  cases a
  cases b
  cases h
  rfl

/-- Tables are compared by their entries. -/
instance [DecidableEq α] : DecidableEq (Table α) := fun _ _ =>
  decidable_of_iff _ Table.ext_iff.symm

/-- Registers a value under a name, replacing any previous value. -/
def insert (table : Table α) (name : String) (value : α) : Table α :=
  ⟨Assoc.insert name value table.entries, Assoc.nodup_keys_insert table.nodup name value⟩

/-- Registers every pair of a list, from left to right. -/
def insertAll (table : Table α) (pairs : List (String × α)) : Table α :=
  ⟨Assoc.insertAll pairs table.entries, Assoc.nodup_keys_insertAll table.nodup pairs⟩

/-- The table of a list of pairs; of two values for one name, the later one is kept. -/
def ofList (pairs : List (String × α)) : Table α :=
  empty.insertAll pairs

/-- The value registered under a name. -/
def get? (table : Table α) (name : String) : Option α :=
  Assoc.get? name table.entries

/-- Whether a name is registered. -/
def contains (table : Table α) (name : String) : Bool :=
  (table.get? name).isSome

/-- The registered names, in order of first registration. -/
def names (table : Table α) : List String :=
  Assoc.keys table.entries

/-- The number of registered names. -/
def size (table : Table α) : Nat :=
  table.entries.length

/-- Whether no name is registered. -/
def isEmpty (table : Table α) : Bool :=
  table.entries.isEmpty

/-- Whether two tables hold the same entries, in whatever order. -/
def sameEntries (same : α → α → Bool) (a b : Table α) : Bool :=
  a.size == b.size &&
    a.entries.all fun (name, value) =>
      match b.get? name with
      | some other => same value other
      | none => false

@[simp] theorem entries_singleton (name : String) (value : α) :
    (ofList [(name, value)]).entries = [(name, value)] := rfl

@[simp] theorem get?_empty (name : String) : (empty : Table α).get? name = none := rfl

@[simp] theorem get?_insert_self (table : Table α) (name : String) (value : α) :
    (table.insert name value).get? name = some value :=
  Assoc.get?_insert_self name value table.entries

theorem get?_insert_of_ne (table : Table α) {name other : String} (h : name ≠ other) (value : α) :
    (table.insert name value).get? other = table.get? other :=
  Assoc.get?_insert_of_ne h value table.entries

/-- A name is not contained exactly when nothing is found under it. -/
theorem contains_eq_false_iff (table : Table α) (name : String) :
    table.contains name = false ↔ table.get? name = none := by
  simp [contains]

/-- The table of the entries of a table is the table. -/
theorem ofList_entries (table : Table α) : ofList table.entries = table :=
  ext (Assoc.insertAll_of_nodup table.nodup)

/-- Whether a table is what a list of registrations leaves: its names are distinct and stand in the
order of their first registration, and each of them has the value of its last one. -/
structure Records (table : Table α) (log : List (String × α)) : Prop where
  nodup : table.names.Nodup
  names : table.names = (Assoc.keys log).eraseDups
  last : ∀ name, table.get? name = Assoc.get? name log.reverse

namespace Records

variable {table : Table α} {log : List (String × α)}

/-- Without registrations, a table is empty. -/
theorem empty : (Table.empty : Table α).Records [] :=
  ⟨List.nodup_nil, rfl, fun _ => rfl⟩

/-- Further registrations follow those that a table records. -/
theorem insertAll (h : table.Records log) (pairs : List (String × α)) :
    (table.insertAll pairs).Records (log ++ pairs) := by
  refine ⟨(table.insertAll pairs).nodup, ?names, fun name => ?last⟩
  case names =>
    -- A name is among the listed ones exactly if it was registered before.
    have hknown : (Assoc.keys pairs).removeAll (Assoc.keys table.entries) =
        (Assoc.keys pairs).removeAll (Assoc.keys log) := by
      have hnames : Assoc.keys table.entries = (Assoc.keys log).eraseDups := h.names
      simp only [hnames, List.removeAll, List.elem_eq_mem, List.mem_eraseDups]
    show Assoc.keys (Assoc.insertAll pairs table.entries) = _
    rw [Assoc.keys_insertAll, hknown, Assoc.keys_append, List.eraseDups_append, ← h.names]
    rfl
  case last =>
    show Assoc.get? name (Assoc.insertAll pairs table.entries) = _
    rw [Assoc.get?_insertAll, List.reverse_append, Assoc.get?_append, ← h.last]
    rfl

/-- A table of a list of pairs records the pairs. -/
theorem ofList (pairs : List (String × α)) : (Table.ofList pairs).Records pairs :=
  empty.insertAll pairs

/-- A table records its own entries. -/
theorem entries (table : Table α) : table.Records table.entries := by
  have hrecords := ofList table.entries
  rwa [ofList_entries] at hrecords

/-- A name is listed exactly if it was registered. -/
theorem mem_names_iff (h : table.Records log) {name : String} :
    name ∈ table.names ↔ name ∈ Assoc.keys log := by
  rw [h.names, List.mem_eraseDups]

/-- What is found under a name was registered under it. -/
theorem mem_of_get? (h : table.Records log) {name : String} {value : α}
    (hvalue : table.get? name = some value) : (name, value) ∈ log := by
  rw [h.last] at hvalue
  exact List.mem_reverse.mp (Assoc.mem_of_get? hvalue)

end Records

end Table

end StyleProps
