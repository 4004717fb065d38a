import StyleProps.Proofs.MergeTable

/-!
# Merging in groups

When the order of merges is fixed but not their grouping. Three objects can be regrouped if they are
`Compatible`. Any number of them can be merged in any groups, and groups of groups, if the values at
each path are all of one kind, which is `SameKinds`. Then there is a kind for every path that all of
the objects follow (`Follows`), merges included, and `Regroupable` does the rest.
-/

namespace StyleProps.Declarations

open Value

/-- The value at a path of keys. The empty path leads to no value. -/
def valueAt? : Declarations → List String → Option Value
  | _, [] => none
  | d, [key] => d.get? key
  | d, key :: next :: rest => (d.nested? key).bind fun inner => valueAt? inner (next :: rest)

/-- Whether the values that objects have at one path are of one kind, for every path. -/
def SameKinds (objects : List Declarations) : Prop :=
  ∀ first ∈ objects, ∀ second ∈ objects, ∀ path left right,
    first.valueAt? path = some left → second.valueAt? path = some right → left.kind = right.kind

/-- A way of merging a list of objects: in groups, which may have groups in them. -/
inductive Grouping where
  /-- An object by itself. -/
  | single (object : Declarations)
  /-- What is merged into one object first. -/
  | group (parts : List Grouping)

namespace Grouping

mutual
/-- The objects of a grouping, from left to right. -/
def objects : Grouping → List Declarations
  | .single object => [object]
  | .group parts => allObjects parts

/-- The objects of groupings, from left to right. -/
def allObjects : List Grouping → List Declarations
  | [] => []
  | part :: rest => objects part ++ allObjects rest
end

mutual
/-- What a grouping comes to. -/
def merged : Grouping → Declarations
  | .single object => object
  | .group parts => mergeAll [] (allMerged parts)

/-- What each of several groupings comes to. -/
def allMerged : List Grouping → List Declarations
  | [] => []
  | part :: rest => merged part :: allMerged rest
end

variable {member : Declarations → Prop}

mutual
/-- A grouping of objects that can be regrouped comes to what its objects come to one by one. -/
theorem merged_eq_mergeAll (hclass : Regroupable member) (grouping : Grouping)
    (h : ∀ object ∈ grouping.objects, member object) :
    grouping.merged = mergeAll [] grouping.objects := by
  cases grouping with
  | single object =>
      have hobject : member object := h object List.mem_cons_self
      exact (nil_merge (hclass.wellFormed object hobject)).symm
  | group parts => exact mergeAll_allMerged hclass parts hclass.nil h

/-- Merging groupings into a target comes to merging their objects into it one by one. -/
theorem mergeAll_allMerged (hclass : Regroupable member) (parts : List Grouping)
    {target : Declarations} (htarget : member target)
    (h : ∀ object ∈ allObjects parts, member object) :
    target.mergeAll (allMerged parts) = target.mergeAll (allObjects parts) := by
  cases parts with
  | nil => rfl
  | cons part rest =>
      have hpart : ∀ object ∈ part.objects, member object :=
        fun object hobject => h object (List.mem_append_left _ hobject)
      have hrest : ∀ object ∈ allObjects rest, member object :=
        fun object hobject => h object (List.mem_append_right _ hobject)
      calc target.mergeAll (allMerged (part :: rest))
          = (target.merge part.merged).mergeAll (allMerged rest) := rfl
        _ = (target.merge (mergeAll [] part.objects)).mergeAll (allMerged rest) := by
            rw [merged_eq_mergeAll hclass part hpart]
        _ = (target.mergeAll part.objects).mergeAll (allMerged rest) := by
            rw [hclass.merge_mergeAll htarget hpart]
        _ = (target.mergeAll part.objects).mergeAll (allObjects rest) :=
            mergeAll_allMerged hclass rest (hclass.mergeAll htarget hpart) hrest
        _ = target.mergeAll (allObjects (part :: rest)) := List.foldl_append.symm
end

end Grouping

/-! ## Kinds that are laid down for paths -/

/-- What is combined with a stored value is of the kind of the incoming one. -/
theorem kind_combine (stored : Option Value) (incoming : Value) :
    (combine stored incoming).kind = incoming.kind := by
  cases incoming <;> rfl

/-- A value of the kind of lists is a list. -/
theorem exists_eq_list {value : Value} (h : value.kind = .list) : ∃ items, value = .list items := by
  cases value with
  | list items => exact ⟨items, rfl⟩
  | text _ | number _ | nested _ => cases h

/-- A value of the kind of scopes is a scope. -/
theorem exists_eq_nested {value : Value} (h : value.kind = .nested) :
    ∃ inner, value = .nested inner := by
  cases value with
  | nested inner => exact ⟨inner, rfl⟩
  | text _ | number _ | list _ => cases h

/-- Below a key with a scope, values are those of the scope. -/
theorem valueAt?_of_nested {d inner : Declarations} {key : String}
    (h : d.get? key = some (.nested inner)) {path : List String} {value : Value}
    (hvalue : inner.valueAt? path = some value) : d.valueAt? (key :: path) = some value := by
  cases path with
  | nil => cases hvalue
  | cons next rest => rw [valueAt?, nested?_eq_some_iff.mpr h, Option.bind_some, hvalue]

/-- Whether the values of a well-formed object are of the kinds laid down for their paths. -/
structure Follows (kinds : List String → Kind) (d : Declarations) : Prop where
  wellFormed : d.WellFormed
  kind : ∀ path value, d.valueAt? path = some value → value.kind = kinds path

namespace Follows

variable {kinds : List String → Kind} {d target source : Declarations}

/-- The value under a key is of the kind of its path. -/
theorem kind_get (h : Follows kinds d) {key : String} {value : Value}
    (hget : d.get? key = some value) : value.kind = kinds [key] :=
  h.kind [key] value hget

/-- The scope under a key follows the kinds below that key. -/
theorem inner (h : Follows kinds d) {key : String} {object : Declarations}
    (hget : d.get? key = some (.nested object)) :
    Follows (fun path => kinds (key :: path)) object where
  wellFormed := h.wellFormed.nested hget
  kind path value hvalue := h.kind (key :: path) value (valueAt?_of_nested hget hvalue)

/-- An object follows kinds if its values do, and its scopes follow the kinds below their keys. -/
theorem of_get (hwf : d.WellFormed)
    (hkind : ∀ key value, d.get? key = some value → value.kind = kinds [key])
    (hinner : ∀ key object, d.get? key = some (.nested object) →
      Follows (fun path => kinds (key :: path)) object) : Follows kinds d where
  wellFormed := hwf
  kind path value hvalue := by
    match path with
    | [] => cases hvalue
    | [key] => exact hkind key value hvalue
    | key :: next :: rest =>
        obtain ⟨object, hobject, hbelow⟩ := Option.bind_eq_some_iff.mp hvalue
        exact (hinner key object (nested?_eq_some_iff.mp hobject)).kind (next :: rest) value hbelow

/-- The empty object follows all kinds. -/
theorem nil : Follows kinds [] :=
  of_get wellFormed_nil (fun _ _ h => by cases h) fun _ _ h => by cases h

/-- The scope under a key, or the empty object, follows the kinds below that key. -/
theorem nested?_getD (h : Follows kinds d) (key : String) :
    Follows (fun path => kinds (key :: path)) ((d.nested? key).getD []) := by
  cases hget : d.nested? key with
  | none => exact nil
  | some object => exact h.inner (nested?_eq_some_iff.mp hget)

/-- A merge follows the kinds that both objects follow. -/
theorem merge (htarget : Follows kinds target) (hsource : Follows kinds source) :
    Follows kinds (target.merge source) := by
  induction source using nested_induction generalizing kinds target with
  | step source ih =>
      have hnodup := hsource.wellFormed.nodup
      refine of_get (htarget.wellFormed.merge hsource.wellFormed) ?kind ?inner
      case kind =>
        intro key value hget
        cases hincoming : source.get? key with
        | none =>
            rw [get?_merge_of_none target hnodup hincoming] at hget
            exact htarget.kind_get hget
        | some incoming =>
            rw [get?_merge_of_some target hnodup hincoming] at hget
            obtain rfl := Option.some.inj hget
            rw [kind_combine, hsource.kind_get hincoming]
      case inner =>
        intro key object hget
        cases hincoming : source.get? key with
        | none =>
            rw [get?_merge_of_none target hnodup hincoming] at hget
            exact htarget.inner hget
        | some incoming =>
            rw [get?_merge_of_some target hnodup hincoming] at hget
            have hcombine := Option.some.inj hget
            -- Only a scope combines with what is stored to a scope.
            have hkind : incoming.kind = .nested := by
              rw [← kind_combine (target.get? key), hcombine]
              rfl
            obtain ⟨entries, rfl⟩ := exists_eq_nested hkind
            rw [combine_nested] at hcombine
            obtain rfl := Value.nested.inj hcombine
            exact ih key entries hincoming (htarget.nested?_getD key) (hsource.inner hincoming)

/-- Objects that follow the same kinds are compatible. -/
theorem compatible {first second third : Declarations} (hfirst : Follows kinds first)
    (hsecond : Follows kinds second) (hthird : Follows kinds third) :
    Compatible first second third := by
  induction first using nested_induction generalizing kinds second third with
  | step first ih =>
      refine .intro ?_ ?_ ?_
      · intro key left middle right hleft hmiddle _
        exact exists_eq_list ((hsecond.kind_get hmiddle).trans (hfirst.kind_get hleft).symm)
      · intro key left middle right hleft hmiddle _
        exact exists_eq_nested ((hsecond.kind_get hmiddle).trans (hfirst.kind_get hleft).symm)
      · intro key left middle right hleft hmiddle hright
        exact ih key left hleft (hfirst.inner hleft) (hsecond.inner hmiddle) (hthird.inner hright)

/-- Merges of objects that follow the same kinds can be regrouped. -/
theorem regroupable : Regroupable (Follows kinds) :=
  ⟨nil, fun _ _ => merge, fun _ => wellFormed, fun _ _ _ => compatible⟩

end Follows

/-- The values that well-formed objects have at one path are of one kind exactly if there are kinds
that all objects follow. -/
theorem sameKinds_iff {objects : List Declarations} (hwf : ∀ d ∈ objects, d.WellFormed) :
    SameKinds objects ↔ ∃ kinds, ∀ d ∈ objects, Follows kinds d := by
  constructor
  · intro h
    -- The kind at a path is that of the first object with a value there.
    let kinds (path : List String) : Kind :=
      ((objects.findSome? (·.valueAt? path)).map Value.kind).getD .scalar
    refine ⟨kinds, fun d hd => ⟨hwf d hd, fun path value hvalue => ?_⟩⟩
    show value.kind = ((objects.findSome? (·.valueAt? path)).map Value.kind).getD .scalar
    cases hfind : objects.findSome? (·.valueAt? path) with
    | none =>
        have hnone := List.findSome?_eq_none_iff.mp hfind d hd
        cases hnone.symm.trans hvalue
    | some first =>
        obtain ⟨other, hother, hfirst⟩ := List.exists_of_findSome?_eq_some hfind
        exact h d hd other hother path value first hvalue hfirst
  · rintro ⟨kinds, hfollows⟩ first hfirst second hsecond path left right hleft hright
    rw [(hfollows first hfirst).kind path left hleft,
      (hfollows second hsecond).kind path right hright]

/-- Merges of three compatible objects can be regrouped. Where the values at each path are of one
kind, any number of objects can be merged into a target in any groups. In both cases the keys stand
in the same order at every depth. -/
theorem merge_assoc_and_mergeAll_grouped :
    (∀ first second third : Declarations,
      first.WellFormed → second.WellFormed → third.WellFormed → Compatible first second third →
        (first.merge second).merge third = first.merge (second.merge third)) ∧
      ∀ (target : Declarations) (groups : List Grouping),
        (∀ d ∈ target :: Grouping.allObjects groups, d.WellFormed) →
        SameKinds (target :: Grouping.allObjects groups) →
          target.mergeAll (Grouping.allMerged groups) =
            target.mergeAll (Grouping.allObjects groups) := by
  constructor
  · intro first second third hfirst hsecond hthird hcompatible
    exact merge_assoc hcompatible hfirst hsecond hthird
  · intro target groups hwf hkinds
    obtain ⟨kinds, hfollows⟩ := (sameKinds_iff hwf).mp hkinds
    exact Grouping.mergeAll_allMerged Follows.regroupable groups
      (hfollows target List.mem_cons_self)
      fun object hobject => hfollows object (List.mem_cons_of_mem _ hobject)

/-- Three objects with values of all kinds under one key, and lists below a scope in nested
groups. -/
theorem merge_assoc_and_mergeAll_grouped_lists :
    let first : Declarations := [("k", .text "1"), ("x", .list [.text "2"])]
    let second : Declarations := [("x", .list []), ("k", .list [.text "3"])]
    let third : Declarations := [("k", .nested []), ("x", .list [.text "4"])]
    let layer (content : String) : Declarations := [("s", .nested [("x", .list [.text content])])]
    let groups : List Grouping :=
      [.single (layer "1"), .group [.group [.single (layer "2"), .single (layer "3")],
        .single (layer "4")]]
    Compatible first second third ∧
      (first.merge second).merge third = first.merge (second.merge third) ∧
      SameKinds (layer "0" :: Grouping.allObjects groups) ∧
      (layer "0").mergeAll (Grouping.allMerged groups) =
        (layer "0").mergeAll [layer "1", layer "2", layer "3", layer "4"] := by
  intro first second third layer groups
  have hlayer : ∀ content, (layer content).WellFormed := by
    simp [layer, WellFormed, Value.WellFormed, WellFormedItems, WellFormedEntries]
  have hscalar : ∀ key inner, first.get? key ≠ some (.nested inner) := by
    intro key inner hget
    simpa [first] using Assoc.mem_of_get? hget
  have hcompatible : Compatible first second third := by
    refine .intro ?_ (fun key left _ _ hleft => absurd hleft (hscalar key left))
      fun key left _ _ hleft => absurd hleft (hscalar key left)
    intro key left middle right hleft hmiddle _
    have hkey : key = "x" := by
      have hmem := Assoc.mem_of_get? hleft
      simp only [first, List.mem_cons, Prod.mk.injEq, reduceCtorEq, and_false, false_or,
        List.not_mem_nil, or_false] at hmem
      exact hmem.1
    subst hkey
    exact ⟨[], (Option.some.inj hmiddle).symm⟩
  have hall : ∀ d ∈ layer "0" :: Grouping.allObjects groups, ∃ content, d = layer content := by
    intro d hd
    simp only [groups, Grouping.allObjects, Grouping.objects, List.append_nil, List.cons_append,
      List.nil_append, List.mem_cons, List.not_mem_nil, or_false] at hd
    rcases hd with rfl | rfl | rfl | rfl | rfl <;> exact ⟨_, rfl⟩
  have hwf : ∀ d ∈ layer "0" :: Grouping.allObjects groups, d.WellFormed := by
    intro d hd
    obtain ⟨content, rfl⟩ := hall d hd
    exact hlayer content
  -- Whatever the content of a layer, its scope has the path `["s"]`, and the list is below it.
  let kinds (path : List String) : Kind := if path = ["s"] then .nested else .list
  have hfollows : ∀ content, Follows kinds (layer content) := by
    intro content
    have hscope : ∀ key value, (layer content).get? key = some value →
        key = "s" ∧ value = .nested [("x", .list [.text content])] :=
      fun key value hget => by simpa [layer] using Assoc.mem_of_get? hget
    have hlist : ∀ key value, get? [("x", .list [.text content])] key = some value →
        value = .list [.text content] :=
      fun key value hget => by
        simpa using (Prod.mk.inj (List.mem_singleton.mp (Assoc.mem_of_get? hget))).2
    refine .of_get (hlayer content) (fun key value hget => ?_) fun key object hget => ?_
    · obtain ⟨rfl, rfl⟩ := hscope key value hget
      rfl
    · obtain ⟨rfl, hobject⟩ := hscope key _ hget
      obtain rfl := Value.nested.inj hobject
      refine .of_get ((hlayer content).nested hget) (fun next value hvalue => ?_) fun next _ h => ?_
      · rw [hlist next value hvalue]
        rfl
      · cases hlist next _ h
  have hkinds : SameKinds (layer "0" :: Grouping.allObjects groups) :=
    (sameKinds_iff hwf).mpr ⟨kinds, fun d hd => by
      obtain ⟨content, rfl⟩ := hall d hd
      exact hfollows content⟩
  refine ⟨hcompatible, merge_assoc_and_mergeAll_grouped.1 first second third ?_ ?_ ?_ hcompatible,
    hkinds, merge_assoc_and_mergeAll_grouped.2 (layer "0") groups hwf hkinds⟩
  all_goals
    simp [first, second, third, WellFormed, Value.WellFormed, WellFormedItems, WellFormedEntries]

end StyleProps.Declarations
