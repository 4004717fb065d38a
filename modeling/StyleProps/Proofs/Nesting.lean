import StyleProps.Proofs.Paths
import StyleProps.Selector.Nest

/-!
# The scopes of selector tokens

What nesting a rule builds, and what it reports. The keys of the tokens that open a scope lead to
the rule, the key of the first of them from the outside, and on the way there is nothing besides
them; `Declarations.LeadsTo` says so of an object in terms of its keys at paths, and `leadsTo_iff`
that it says everything about the object. `nest_eq` has both what is built and what is reported, and
the main result, `leadsTo_nest_and_reports`, is read off it.
-/

namespace StyleProps

namespace Declarations

/-- Whether keys lead from an object to a rule one by one, with no other key on the way. -/
structure LeadsTo (d : Declarations) (keys : List String) (rule : Declarations) : Prop where
  single : ∀ front key back, keys = front ++ key :: back → d.keysAt front = [key]
  reaches : d.objectAt? keys = some rule

variable {d rule : Declarations} {key : String} {keys : List String}

/-- Without keys, an object leads to itself. -/
theorem leadsTo_nil_iff : d.LeadsTo [] rule ↔ d = rule := by
  constructor
  · intro h
    exact Option.some.inj h.reaches
  · rintro rfl
    exact ⟨fun front key back hkeys => by simp at hkeys, rfl⟩

/-- The scope of an object that was put under a key is the object. -/
theorem get?_wrap_self (d : Declarations) (key : String) :
    (d.wrap key).get? key = some (.nested d) :=
  get?_cons_self key (.nested d) []

/-- The first of some keys leads into the scope that the object was made of. -/
theorem leadsTo_cons_iff :
    d.LeadsTo (key :: keys) rule ↔ ∃ inner, d = wrap inner key ∧ inner.LeadsTo keys rule := by
  constructor
  · intro h
    obtain ⟨inner, hinner, hreaches⟩ := Option.bind_eq_some_iff.mp h.reaches
    have hget : d.get? key = some (.nested inner) := nested?_eq_some_iff.mp hinner
    have hkeys : d.keys = [key] := h.single [] key keys rfl
    refine ⟨inner, ?_, fun front next back heq => ?_, hreaches⟩
    · -- There is a single entry, and it is the one that is found under the key.
      obtain ⟨⟨first, value⟩, rfl, hfirst⟩ := List.map_eq_singleton_iff.mp hkeys
      obtain rfl : first = key := hfirst
      rw [get?_cons_self] at hget
      rw [Option.some.inj hget, wrap]
    · rw [← keysAt_of_nested hget]
      exact h.single (key :: front) next back (by rw [heq, List.cons_append])
  · rintro ⟨inner, rfl, h⟩
    have hget := get?_wrap_self inner key
    refine ⟨fun front next back heq => ?_, ?_⟩
    · cases front with
      | nil =>
          obtain ⟨rfl, _⟩ := List.cons.inj heq
          rfl
      | cons first front =>
          obtain ⟨rfl, hkeys⟩ := List.cons.inj heq
          rw [keysAt_of_nested hget]
          exact h.single front next back hkeys
    · rw [objectAt?, nested?_eq_some_iff.mpr hget, Option.bind_some]
      exact h.reaches

/-- Only one object leads to a rule by some keys: the rule put under the keys, the last one first.
-/
theorem leadsTo_iff :
    d.LeadsTo keys rule ↔ d = keys.foldr (fun key inner => wrap inner key) rule := by
  induction keys generalizing d with
  | nil => exact leadsTo_nil_iff
  | cons key keys ih => simp only [leadsTo_cons_iff, ih, exists_eq_right, List.foldr_cons]

end Declarations

open Declarations (LeadsTo leadsTo_iff)

namespace SelectorTable

/-- The keys of the scopes that tokens open, in order. -/
def scopeKeys (table : SelectorTable) (tokens : List SelectorToken) : List String :=
  tokens.filterMap (·.key? table)

/-- Whether a token opens a scope. -/
def opens (table : SelectorTable) (token : SelectorToken) : Bool :=
  (token.key? table).isSome

end SelectorTable

variable {table : SelectorTable}

/-- The keys of tokens are those of the tokens that open a scope. -/
theorem scopeKeys_filter_opens (table : SelectorTable) (tokens : List SelectorToken) :
    table.scopeKeys (tokens.filter table.opens) = table.scopeKeys tokens := by
  unfold SelectorTable.scopeKeys SelectorTable.opens
  induction tokens with
  | nil => rfl
  | cons token rest ih =>
      cases hkey : token.key? table with
      | none => simp [hkey, ih]
      | some key => simp [hkey, ih]

/-- A rule is put under the keys of the tokens that open a scope, and the others are reported from
the last one to the first. -/
theorem nest_eq (table : SelectorTable) (rule : Declarations) (tokens : List SelectorToken) :
    nest table rule tokens =
      ((table.scopeKeys tokens).foldr (fun key inner => inner.wrap key) rule,
        (tokens.filter (!table.opens ·)).reverse) := by
  induction tokens with
  | nil => rfl
  | cons token rest ih =>
      cases hkey : token.key? table with
      | none =>
          rw [nest_cons_of_none hkey, ih]
          simp [SelectorTable.scopeKeys, SelectorTable.opens, hkey]
      | some key =>
          rw [nest_cons_of_some hkey, ih]
          simp [SelectorTable.scopeKeys, SelectorTable.opens, hkey]

/-- Nesting in the scopes of two lists of tokens is nesting in those of the second one and then in
those of the first one. -/
theorem nest_append (table : SelectorTable) (rule : Declarations)
    (tokens others : List SelectorToken) :
    nest table rule (tokens ++ others) =
      ((nest table (nest table rule others).1 tokens).1,
        (nest table rule others).2 ++ (nest table (nest table rule others).1 tokens).2) := by
  simp only [nest_eq, SelectorTable.scopeKeys, List.filterMap_append, List.foldr_append,
    List.filter_append, List.reverse_append]

/-- Nesting opens a scope for each token that opens one, the first outermost, and nothing else: the
nested rule is the object in which their keys lead to the rule with no other key on the way. The
tokens that open none are reported from the last to the first, each as often as it occurs, and it
makes no difference to the object which of them there are. The tokens can be cut anywhere: nesting
in the scopes of the second part and then in those of the first one is the same, and what is
reported of the second part comes first. -/
theorem leadsTo_nest_and_reports (table : SelectorTable) (rule : Declarations)
    (tokens : List SelectorToken) :
    (∀ d : Declarations, d.LeadsTo (table.scopeKeys tokens) rule ↔
        d = (nest table rule tokens).1) ∧
      (nest table rule tokens).2 = (tokens.filter (!table.opens ·)).reverse ∧
      (∀ others, others.filter table.opens = tokens.filter table.opens →
        (nest table rule others).1 = (nest table rule tokens).1) ∧
      ∀ others, nest table rule (tokens ++ others) =
        ((nest table (nest table rule others).1 tokens).1,
          (nest table rule others).2 ++ (nest table (nest table rule others).1 tokens).2) := by
  refine ⟨fun d => ?_, ?_, fun others h => ?_, nest_append table rule tokens⟩
  · rw [leadsTo_iff, nest_eq]
  · rw [nest_eq]
  · rw [nest_eq, nest_eq, ← scopeKeys_filter_opens table others, h, scopeKeys_filter_opens]

end StyleProps
