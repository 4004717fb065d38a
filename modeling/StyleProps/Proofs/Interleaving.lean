import StyleProps.Proofs.SingleProp

/-!
# Props between other props

Which parts of the order of props matter at all. The main result, `resolve_eq_of_within_eq`, says
that props resolve to the same if they hold the same aliases in the same order and the same
selectors in the same order. Props of neither kind can stand anywhere, and where an alias and a
selector stand next to each other they can change places. Each of the two sweeps over the props
leaves out what is not of its kind (`sweep_within`).
-/

namespace StyleProps

/-- The entries of the props with names of a kind, in order. -/
def Props.within (props : Props) (ofKind : String → Bool) : List (String × PropValue) :=
  props.entries.filter fun entry => ofKind entry.1

namespace Props

variable {props others : Props}

/-- Props that agree on a kind agree on every narrower kind. -/
theorem within_eq_of_imp {ofKind narrower : String → Bool}
    (himp : ∀ name, narrower name = true → ofKind name = true)
    (h : props.within ofKind = others.within ofKind) :
    props.within narrower = others.within narrower := by
  have hnarrow : ∀ table : Props,
      (table.within ofKind).filter (fun entry => narrower entry.1) = table.within narrower := by
    intro table
    rw [within, within, List.filter_filter]
    refine List.filter_congr fun entry _ => ?_
    cases hentry : narrower entry.1 with
    | false => rfl
    | true => rw [himp entry.1 hentry, Bool.and_true]
  rw [← hnarrow props, ← hnarrow others, h]

/-- When two neighbours change places of which not both are of a kind, the props of this kind stay
as they are. -/
theorem within_eq_of_exchange {ofKind : String → Bool} {front back : List (String × PropValue)}
    {a b : String × PropValue} (hprops : props.entries = front ++ a :: b :: back)
    (hothers : others.entries = front ++ b :: a :: back)
    (h : ofKind a.1 = false ∨ ofKind b.1 = false) : props.within ofKind = others.within ofKind := by
  rw [within, within, hprops, hothers, List.filter_append, List.filter_append]
  congr 1
  rcases h with ha | hb
  · simp [List.filter_cons, ha]
  · simp [List.filter_cons, hb]

end Props

namespace Resolver

open Resolution (followedBy followedBy_empty sweep resolve_eq_sweep)

/-- A sweep over the props leaves out those that are not of its kind. -/
theorem sweep_within {contribution : String → PropValue → Resolution} {ofKind : String → Bool}
    (h : ∀ name value, ofKind name = false → contribution name value = .empty) (props : Props) :
    sweep contribution (props.within ofKind) = sweep contribution props.entries := by
  have hfold : ∀ (entries : List (String × PropValue)) (start : Resolution),
      ((entries.filter fun entry => ofKind entry.1).map
          fun entry => contribution entry.1 entry.2).foldl followedBy start =
        (entries.map fun entry => contribution entry.1 entry.2).foldl followedBy start := by
    intro entries
    induction entries with
    | nil => exact fun start => rfl
    | cons entry rest ih =>
        intro start
        cases hentry : ofKind entry.1 with
        | true => simp only [List.filter_cons, hentry, if_true, List.map_cons, List.foldl_cons, ih]
        | false =>
            have hempty := h entry.1 entry.2 hentry
            simp only [List.filter_cons, hentry, Bool.false_eq_true, if_false, List.map_cons,
              List.foldl_cons, hempty, followedBy_empty, ih]
  exact hfold props.entries .empty

/-- Resolving goes over the aliases among the props, and then over the selectors among them. -/
theorem resolve_eq_within (resolver : Resolver) (props : Props) :
    resolver.resolve props =
      (sweep resolver.asAlias (props.within resolver.config.aliases.contains)).followedBy
        (sweep resolver.asSelector (props.within resolver.config.scopes.contains)) := by
  have halias : ∀ name value, resolver.config.aliases.contains name = false →
      resolver.asAlias name value = .empty :=
    fun name value hname =>
      asAlias_eq_empty ((Table.contains_eq_false_iff _ name).mp hname) value
  have hselector : ∀ name value, resolver.config.scopes.contains name = false →
      resolver.asSelector name value = .empty :=
    fun name value hname =>
      asSelector_eq_empty ((Table.contains_eq_false_iff _ name).mp hname) value
  rw [sweep_within halias, sweep_within hselector, resolve_eq_sweep]

/-- In every configuration and mode, props resolve to the same declarations, with the same order of
keys, and to the same diagnostics in the same order, if they hold the same aliases in the same order
and the same selectors in the same order, where a name that is both counts among both. So props of
neither kind change nothing, and an alias and a selector next to each other can change places. -/
theorem resolve_eq_of_within_eq (resolver : Resolver) :
    (∀ props others : Props,
      props.within resolver.config.aliases.contains =
        others.within resolver.config.aliases.contains →
      props.within resolver.config.scopes.contains =
        others.within resolver.config.scopes.contains →
      resolver.resolve props = resolver.resolve others) ∧
    (∀ props others : Props,
      props.within resolver.isStyleProp = others.within resolver.isStyleProp →
      resolver.resolve props = resolver.resolve others) ∧
    ∀ (props others : Props) (front back : List (String × PropValue))
      (first second : String × PropValue),
      props.entries = front ++ first :: second :: back →
      others.entries = front ++ second :: first :: back →
      resolver.config.scopes.contains first.1 = false →
      resolver.config.aliases.contains second.1 = false →
      resolver.resolve props = resolver.resolve others := by
  have hresolve : ∀ props others : Props,
      props.within resolver.config.aliases.contains =
        others.within resolver.config.aliases.contains →
      props.within resolver.config.scopes.contains =
        others.within resolver.config.scopes.contains →
      resolver.resolve props = resolver.resolve others := by
    intro props others haliases hselectors
    rw [resolve_eq_within, resolve_eq_within, haliases, hselectors]
  refine ⟨hresolve, ?others, ?exchange⟩
  case others =>
    intro props others h
    refine hresolve props others (Props.within_eq_of_imp (fun name hname => ?_) h)
      (Props.within_eq_of_imp (fun name hname => ?_) h)
    · rw [isStyleProp, hname, Bool.true_or]
    · rw [isStyleProp, hname, Bool.or_true]
  case exchange =>
    intro props others front back first second hprops hothers hfirst hsecond
    exact hresolve props others
      (Props.within_eq_of_exchange hprops hothers (Or.inr hsecond))
      (Props.within_eq_of_exchange hprops hothers (Or.inl hfirst))

/-- Where the padding is an alias and a selector, it stays in front of the margin and of hovering,
while these two change places and other props come and go. -/
theorem resolve_eq_of_within_eq_padding :
    let config := ((((Config.empty.withAlias (.property "p" "padding")).withAlias
      (.property "m" "margin")).withScope "p" (.pseudoClass "link")).withSelector "hover"
      (.pseudoClass "hover"))
    let resolver : Resolver := ⟨config, true⟩
    let props : Props := ⟨[("onClick", .bool true), ("p", .text "4"), ("hover", .text "m=1"),
      ("m", .text "@no=1")], by decide⟩
    let others : Props := ⟨[("p", .text "4"), ("m", .text "@no=1"), ("id", .null),
      ("hover", .text "m=1")], by decide⟩
    props.within resolver.config.aliases.contains =
        others.within resolver.config.aliases.contains ∧
      props.within resolver.config.scopes.contains =
        others.within resolver.config.scopes.contains ∧
      resolver.resolve props = resolver.resolve others := by
  intro config resolver props others
  have halias : ["onClick", "p", "hover", "m", "id"].map resolver.config.aliases.contains =
      [false, true, false, true, false] := by decide +kernel
  have hscope : ["onClick", "p", "hover", "m", "id"].map resolver.config.scopes.contains =
      [false, true, true, false, false] := by decide +kernel
  simp only [List.map_cons, List.map_nil, List.cons.injEq, and_true] at halias hscope
  have haliases : props.within resolver.config.aliases.contains =
      others.within resolver.config.aliases.contains := by
    simp [props, others, Props.within, halias]
  have hselectors : props.within resolver.config.scopes.contains =
      others.within resolver.config.scopes.contains := by
    simp [props, others, Props.within, hscope]
  exact ⟨haliases, hselectors,
    (resolve_eq_of_within_eq resolver).1 props others haliases hselectors⟩

end Resolver

end StyleProps
