import StyleProps.Declaration.Basic

/-!
# Merging declaration objects

`merge` folds a source into a target, entry by entry. A nested scope is merged into the scope that
is stored under its key, or into an empty one; the items of a list follow those of the list that is
stored there; any other value replaces what is stored. No key is dropped, and a key that is present
keeps its position.
-/

namespace StyleProps

namespace Value

mutual
/-- The value under a key after a merge, given the one that is stored there and the incoming one. -/
def combine (stored : Option Value) : Value → Value
  | .nested entries => .nested (mergeEntries ((stored.bind asNested?).getD []) entries)
  | .list items => .list ((stored.bind asList?).getD [] ++ items)
  | .number x => .number x
  | .text content => .text content
termination_by structural incoming => incoming

/-- Folds the entries of a source into a target, from left to right. -/
def mergeEntries (target : Declarations) : List (String × Value) → Declarations
  | [] => target
  | (key, incoming) :: rest =>
      mergeEntries (Assoc.insert key (combine (Assoc.get? key target) incoming) target) rest
termination_by structural source => source
end

end Value

namespace Declarations

/-- Folds a source object into a target object, at every depth. -/
def merge (target source : Declarations) : Declarations :=
  Value.mergeEntries target source

/-- Folds any number of source objects into a target object, from left to right. -/
def mergeAll (target : Declarations) (sources : List Declarations) : Declarations :=
  sources.foldl merge target

/-- The empty object is a right identity. -/
@[simp] theorem merge_nil (target : Declarations) : merge target [] = target := rfl

/-- A merge takes the entries of its source one by one. -/
theorem merge_cons (target : Declarations) (key : String) (incoming : Value)
    (rest : List (String × Value)) :
    merge target ((key, incoming) :: rest) =
      merge (target.insert key (Value.combine (target.get? key) incoming)) rest := rfl

end Declarations

end StyleProps
