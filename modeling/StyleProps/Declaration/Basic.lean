import StyleProps.Assoc

/-!
# Declaration objects

A declaration object is an ordered map from keys to values. A key is a property name, such as
`padding-top`, or opens a nested scope, such as `&:hover` or `@media print`. Its entries stand in
the order in which their keys were first stored; `WellFormed` says that no object inside stores a
key twice.
-/

namespace StyleProps

/-- A value of a declaration object. -/
inductive Value where
  /-- A literal text. -/
  | text (text : String)
  /-- A number. -/
  | number (x : Float)
  /-- A sequence of values. -/
  | list (items : List Value)
  /-- A nested scope. -/
  | nested (entries : List (String × Value))
deriving Inhabited, Repr

/-- The entries of a declaration object, in order. -/
abbrev Declarations := List (String × Value)

namespace Value

/-- The text of a value that is one. -/
def asText? : Value → Option String
  | .text content => some content
  | _ => none

/-- The object of a value that is a nested scope. -/
def asNested? : Value → Option Declarations
  | .nested entries => some entries
  | _ => none

/-- The items of a value that is a list. -/
def asList? : Value → Option (List Value)
  | .list items => some items
  | _ => none

mutual
/-- Whether every object inside a value stores each of its keys once. -/
def WellFormed : Value → Prop
  | .text _ => True
  | .number _ => True
  | .list items => WellFormedItems items
  | .nested entries => (Assoc.keys entries).Nodup ∧ WellFormedEntries entries

/-- Whether all items of a list are well formed. -/
def WellFormedItems : List Value → Prop
  | [] => True
  | item :: rest => WellFormed item ∧ WellFormedItems rest

/-- Whether the values of all entries are well formed. -/
def WellFormedEntries : List (String × Value) → Prop
  | [] => True
  | (_, value) :: rest => WellFormed value ∧ WellFormedEntries rest
end

end Value

namespace Declarations

/-- The object without entries. -/
def empty : Declarations := []

/-- The keys of an object, in order. -/
def keys (d : Declarations) : List String :=
  Assoc.keys d

/-- The value stored under a key. -/
def get? (d : Declarations) (key : String) : Option Value :=
  Assoc.get? key d

/-- The object stored under a key, if a nested scope is stored there. -/
def nested? (d : Declarations) (key : String) : Option Declarations :=
  (d.get? key).bind Value.asNested?

/-- Whether a value is stored under a key. -/
def contains (d : Declarations) (key : String) : Bool :=
  (d.get? key).isSome

/-- Stores a value under a key. A key that is present keeps its position. -/
def insert (d : Declarations) (key : String) (value : Value) : Declarations :=
  Assoc.insert key value d

/-- The object whose only entry is the given one, as a nested scope. -/
def wrap (d : Declarations) (key : String) : Declarations :=
  [(key, .nested d)]

/-- The object that stores texts under keys, from left to right. -/
def ofTexts (pairs : List (String × String)) : Declarations :=
  pairs.foldl (fun d (key, text) => d.insert key (.text text)) empty

/-- Whether no object at any depth stores a key twice. -/
def WellFormed (d : Declarations) : Prop :=
  (Value.nested d).WellFormed

@[simp] theorem keys_nil : keys [] = [] := rfl

@[simp] theorem keys_cons (entry : String × Value) (rest : Declarations) :
    keys (entry :: rest) = entry.1 :: keys rest := rfl

@[simp] theorem get?_nil (key : String) : get? [] key = none := rfl

theorem get?_cons_self (key : String) (value : Value) (rest : Declarations) :
    get? ((key, value) :: rest) key = some value := by
  simp [get?, Assoc.get?]

theorem get?_cons_of_ne {key other : String} (h : key ≠ other) (value : Value)
    (rest : Declarations) : get? ((key, value) :: rest) other = get? rest other := by
  simp [get?, Assoc.get?, h]

/-- The scope under a key is the object of the nested value that is stored there. -/
theorem nested?_eq_some_iff {d inner : Declarations} {key : String} :
    d.nested? key = some inner ↔ d.get? key = some (.nested inner) := by
  unfold nested?
  cases d.get? key with
  | none => simp
  | some value => cases value <;> simp [Value.asNested?]

/-- Storing texts is storing pairs with texts as values. -/
theorem ofTexts_eq_insertAll (pairs : List (String × String)) :
    ofTexts pairs = Assoc.insertAll (pairs.map fun pair => (pair.1, Value.text pair.2)) [] := by
  rw [Assoc.insertAll, List.foldl_map]
  rfl

/-- The keys under which texts were stored stand in the order in which they come first. -/
theorem keys_ofTexts (pairs : List (String × String)) :
    (ofTexts pairs).keys = (Assoc.keys pairs).eraseDups := by
  have hkeys : Assoc.keys (pairs.map fun pair => (pair.1, Value.text pair.2)) =
      Assoc.keys pairs := by
    simp [Assoc.keys]
  have hnew : (Assoc.keys pairs).removeAll [] = Assoc.keys pairs :=
    List.filter_eq_self.mpr (by simp)
  rw [keys, ofTexts_eq_insertAll, Assoc.keys_insertAll, hkeys, Assoc.keys_nil, List.nil_append,
    hnew]

/-- Under a key stands the last text that was stored there. -/
theorem get?_ofTexts (pairs : List (String × String)) (key : String) :
    (ofTexts pairs).get? key = (Assoc.get? key pairs.reverse).map Value.text := by
  rw [get?, ofTexts_eq_insertAll, Assoc.get?_insertAll, ← List.map_reverse, Assoc.get?_map,
    Assoc.get?_nil, Option.or_none]

end Declarations

end StyleProps
