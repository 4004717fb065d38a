import StyleProps.Proofs.MergeTable
import StyleProps.Proofs.Sequencing
import StyleProps.Proofs.Splitting

/-!
# Repeated sources

Merging a source once more changes nothing if it holds no list (`merge_merge_self`); the items of a
list would be added again. The declarations that a statement gives hold no list, in whatever
configuration (`isPlain_place`), so that a style text may end by repeating its last statement.
`merge_self_and_resolve_repeated` says both.
-/

namespace StyleProps

/-! ## Objects without lists -/

mutual
/-- Whether no list stands anywhere in a value. -/
def Value.isListFree : Value → Bool
  | .text _ => true
  | .number _ => true
  | .list _ => false
  | .nested entries => Value.areListFree entries

/-- Whether no list stands anywhere in the values of entries. -/
def Value.areListFree : List (String × Value) → Bool
  | [] => true
  | (_, value) :: rest => value.isListFree && Value.areListFree rest
end

/-- Whether a value is well formed and holds no list. -/
def Value.IsPlain (value : Value) : Prop :=
  value.WellFormed ∧ value.isListFree = true

namespace Declarations

open Value

/-- Whether no list stands anywhere in an object. -/
def isListFree (d : Declarations) : Bool :=
  (Value.nested d).isListFree

/-- Whether an object is well formed and holds no list. -/
def IsPlain (d : Declarations) : Prop :=
  (Value.nested d).IsPlain

/-- No list stands in the values of entries exactly when none stands in any of them. -/
theorem areListFree_iff {entries : List (String × Value)} :
    areListFree entries = true ↔ ∀ pair ∈ entries, pair.2.isListFree = true := by
  induction entries with
  | nil => simp [areListFree]
  | cons pair rest ih => simp [areListFree, ih]

/-- An object is plain exactly when its keys are distinct and its values are plain. -/
theorem isPlain_iff {d : Declarations} :
    d.IsPlain ↔ d.keys.Nodup ∧ ∀ key value, d.get? key = some value → value.IsPlain := by
  constructor
  · rintro ⟨hwf, hfree⟩
    have hwf : d.WellFormed := hwf
    exact ⟨hwf.nodup, fun key value h =>
      ⟨hwf.value h, areListFree_iff.mp hfree _ (Assoc.mem_of_get? h)⟩⟩
  · rintro ⟨hnodup, hvalues⟩
    exact ⟨wellFormed_iff.mpr ⟨hnodup, fun key value h => (hvalues key value h).1⟩,
      areListFree_iff.mpr fun pair h =>
        (hvalues pair.1 pair.2 (Assoc.get?_of_mem hnodup h)).2⟩

/-- The empty object is plain. -/
theorem isPlain_nil : IsPlain [] :=
  ⟨wellFormed_nil, rfl⟩

namespace IsPlain

variable {d target source : Declarations}

/-- A plain object is well formed. -/
theorem wellFormed (h : d.IsPlain) : d.WellFormed :=
  h.1

/-- The values of a plain object are plain. -/
theorem value (h : d.IsPlain) {key : String} {value : Value} (hget : d.get? key = some value) :
    value.IsPlain :=
  (isPlain_iff.mp h).2 key value hget

/-- The scope under a key of a plain object, or the empty one, is plain. -/
theorem nested?_getD (h : d.IsPlain) (key : String) : ((d.nested? key).getD []).IsPlain := by
  cases hget : d.nested? key with
  | none => exact isPlain_nil
  | some inner => exact h.value (nested?_eq_some_iff.mp hget)

/-- Storing a plain value keeps an object plain. -/
theorem insert (h : d.IsPlain) {value : Value} (hvalue : value.IsPlain) (key : String) :
    (d.insert key value).IsPlain := by
  refine isPlain_iff.mpr ⟨Assoc.nodup_keys_insert h.wellFormed.nodup key value,
    fun other stored hget => ?_⟩
  by_cases heq : key = other
  · subst heq
    obtain rfl := Option.some.inj ((Assoc.get?_insert_self key value d).symm.trans hget)
    exact hvalue
  · exact h.value ((Assoc.get?_insert_of_ne heq value d).symm.trans hget)

/-- Texts under keys are a plain object. -/
theorem ofTexts (pairs : List (String × String)) : (Declarations.ofTexts pairs).IsPlain := by
  have hfold : ∀ d : Declarations, d.IsPlain →
      IsPlain (pairs.foldl (fun d pair => d.insert pair.1 (.text pair.2)) d) := by
    induction pairs with
    | nil => exact fun d hd => hd
    | cons pair rest ih =>
        intro d hd
        have htext : (Value.text pair.2).IsPlain := ⟨trivial, rfl⟩
        exact ih _ (hd.insert htext pair.1)
  exact hfold [] isPlain_nil

/-- Putting a plain object under a key keeps it plain. -/
theorem wrap (h : d.IsPlain) (key : String) : (d.wrap key).IsPlain :=
  isPlain_nil.insert h key

/-- Merging keeps objects plain. -/
theorem merge (htarget : target.IsPlain) (hsource : source.IsPlain) :
    (target.merge source).IsPlain := by
  induction source using nested_induction generalizing target with
  | step source ih =>
      have hnodup := hsource.wellFormed.nodup
      refine isPlain_iff.mpr ⟨nodup_keys_merge htarget.wellFormed.nodup source,
        fun key value hget => ?_⟩
      cases hincoming : source.get? key with
      | none => exact htarget.value ((get?_merge_of_none target hnodup hincoming).symm.trans hget)
      | some incoming =>
          rw [get?_merge_of_some target hnodup hincoming] at hget
          obtain rfl := Option.some.inj hget
          have hplain := hsource.value hincoming
          cases incoming with
          | text content => exact hplain
          | number x => exact hplain
          | list items => cases hplain.2
          | nested inner =>
              rw [combine_nested]
              exact ih key inner hincoming (htarget.nested?_getD key) hplain

end IsPlain

/-- Merging a plain source once more changes nothing. -/
theorem merge_merge_self {target source : Declarations} (htarget : target.WellFormed)
    (hsource : source.IsPlain) : (target.merge source).merge source = target.merge source := by
  induction source using nested_induction generalizing target with
  | step source ih =>
      have hwf : source.WellFormed := hsource.wellFormed
      have hmerge := htarget.merge hwf
      -- No key of the source is new to an object that it was merged into.
      have hold : source.keys.filter (fun key => key ∉ (target.merge source).keys) = [] := by
        refine List.filter_eq_nil_iff.mpr fun key hkey => ?_
        simpa using (mem_keys_merge hwf.nodup).mpr (Or.inr hkey)
      refine Assoc.ext_of_get? ?_ (hmerge.merge hwf).nodup fun key => ?_
      · show ((target.merge source).merge source).keys = (target.merge source).keys
        rw [keys_merge _ hwf.nodup, hold, List.append_nil]
      show ((target.merge source).merge source).get? key = (target.merge source).get? key
      cases hincoming : source.get? key with
      | none => rw [get?_merge_of_none _ hwf.nodup hincoming]
      | some incoming =>
          have hplain := hsource.value hincoming
          rw [get?_merge_of_some (target.merge source) hwf.nodup hincoming]
          cases incoming with
          | text content => exact (get?_merge_of_some target hwf.nodup hincoming).symm
          | number x => exact (get?_merge_of_some target hwf.nodup hincoming).symm
          | list items => cases hplain.2
          | nested inner =>
              have hinner := nested?_merge_of_some target hwf.nodup
                (nested?_eq_some_iff.mpr hincoming)
              rw [combine_nested, hinner, Option.getD_some,
                ih key inner hincoming (htarget.nested?_getD key) hplain]
              exact (nested?_eq_some_iff.mp hinner).symm

end Declarations

/-! ## Resolutions that are repeated -/

/-- With another value under a key that gives the same, the entries give the same. -/
theorem Assoc.map_insert_congr {α β : Type} {f : String × α → β} {key : String} {value other : α}
    (h : f (key, value) = f (key, other)) (entries : List (String × α)) :
    (Assoc.insert key value entries).map f = (Assoc.insert key other entries).map f := by
  induction entries with
  | nil => simp [Assoc.insert, h]
  | cons pair rest ih =>
      obtain ⟨k, v⟩ := pair
      by_cases hk : k = key
      · subst hk
        simp [Assoc.insert, h]
      · simp [Assoc.insert, hk, ih]

namespace Resolution

open Declarations (IsPlain)

/-- Whether two resolutions have the same declarations, and nothing was found wrong on the way to
either of them or something was on the way to both. -/
structure Agrees (first second : Resolution) : Prop where
  declarations : first.declarations = second.declarations
  isClean : first.isClean = second.isClean

/-- Nothing was found wrong with resolutions one after another if nothing was with each of them. -/
theorem isClean_all (parts : List Resolution) : (all parts).isClean = parts.all isClean := by
  rw [isClean, diagnostics_all, Bool.eq_iff_iff, List.isEmpty_iff, List.flatMap_eq_nil_iff,
    List.all_eq_true]
  simp only [isClean, List.isEmpty_iff]

/-- Plain resolutions are plain one after another. -/
theorem isPlain_all {parts : List Resolution}
    (h : ∀ part ∈ parts, part.declarations.IsPlain) : (all parts).declarations.IsPlain :=
  declarations_all_induction Declarations.isPlain_nil (fun _ _ => IsPlain.merge) h

/-- Repeating the last of plain resolutions changes neither the declarations nor whether something
was found wrong. -/
theorem agrees_all_repeated {parts : List Resolution} {last : Resolution}
    (h : ∀ part ∈ parts, part.declarations.IsPlain) (hlast : parts.getLast? = some last) :
    Agrees (all (parts ++ [last])) (all parts) := by
  obtain ⟨front, rfl⟩ := List.getLast?_eq_some_iff.mp hlast
  have hplain : last.declarations.IsPlain := h last (by simp)
  have hfront : (all front).declarations.IsPlain :=
    isPlain_all fun part hpart => h part (List.mem_append_left _ hpart)
  have hlast : ∀ parts : List Resolution, (all (parts ++ [last])).declarations =
      (all parts).declarations.merge last.declarations := by
    intro parts
    rw [all, List.foldl_append]
    rfl
  refine ⟨?_, ?_⟩
  · rw [hlast, hlast, Declarations.merge_merge_self hfront.wellFormed hplain]
  · simp [isClean_all]

end Resolution

/-! ## Style texts that are repeated -/

namespace Statement

/-- Whether a text has no bracket that it leaves open at its end: its last bracket, if it has any,
closes. -/
def EndsClosed (text : String) : Prop :=
  ∀ c ∈ (text.toList.filter isBracket).getLast?, c = ']'

/-- Behind a text whose last bracket closes, every text can follow. -/
theorem EndsClosed.seam {text : String} (h : EndsClosed text) (back : List Char) :
    Seam text.toList back := by
  intro hlast
  cases h '[' hlast

/-- A text that ends by repeating the last statement of another one has the statements of the other
one and the repeated one. -/
theorem split_repeated {text last : String} (h : EndsClosed text)
    (hlast : (split text).getLast? = some last) :
    split (text ++ "|" ++ last) = split text ++ [last] := by
  rw [split_append (h.seam _), split_of_mem (List.mem_of_getLast? hlast)]

end Statement

/-- A style text as the value of a prop, with a parameter if there is one. -/
def PropValue.styled (param : Option String) (text : String) : PropValue :=
  match param with
  | none => .text text
  | some param => .pair param text

namespace Resolver

open Declarations (IsPlain)
open Resolution (Agrees)

variable (resolver : Resolver)

/-- What an alias emits is plain. -/
theorem isPlain_emit (entry : Alias) (raw : String) : (entry.emit raw).IsPlain := by
  unfold Alias.emit Emitter.emit
  cases entry.emitter with
  | properties names => exact IsPlain.ofTexts _
  | quoted property scope =>
      cases scope with
      | none => exact IsPlain.ofTexts _
      | some scope => exact (IsPlain.ofTexts _).wrap scope
  | flex direction directionSlot => exact IsPlain.ofTexts _

/-- In the scopes of selector tokens, a plain rule stays plain. -/
theorem isPlain_nest {rule : Declarations} (h : rule.IsPlain) (table : SelectorTable)
    (tokens : List SelectorToken) : (nest table rule tokens).1.IsPlain :=
  nest_induction h (fun _ key _ _ hinner => hinner.wrap key) tokens

/-- Under a media query, a plain rule stays plain, and of one that is dropped nothing is left. -/
theorem isPlain_underMedia {rule : Declarations} (h : rule.IsPlain) (prop : String)
    (media : Option String) : (resolver.underMedia prop media rule).declarations.IsPlain := by
  cases media with
  | none => exact h
  | some name =>
      simp only [underMedia, MediaTable.wrap?]
      cases resolver.config.media.get? name with
      | none => exact Declarations.isPlain_nil
      | some query => exact h.wrap query

/-- Put in place, a plain rule stays plain. -/
theorem isPlain_place {rule : Declarations} (h : rule.IsPlain) (prop : String)
    (statement : Statement) (outer : Option String) :
    (resolver.place prop statement outer rule).declarations.IsPlain := by
  have hnest := isPlain_nest h resolver.config.tokens statement.selectors
  unfold place
  cases outer with
  | none => exact resolver.isPlain_underMedia hnest prop statement.media
  | some key => exact resolver.isPlain_underMedia (hnest.wrap key) prop statement.media

/-- What the items of a statement emit is plain. -/
theorem isPlain_items (prop : String) (items : List (String × String)) :
    (Resolution.all (items.map fun (name, raw) =>
      resolver.item prop name raw)).declarations.IsPlain := by
  refine Resolution.isPlain_all fun part hpart => ?_
  obtain ⟨⟨name, raw⟩, _, rfl⟩ := List.mem_map.mp hpart
  show (resolver.item prop name raw).declarations.IsPlain
  unfold item AliasTable.emit?
  cases resolver.config.aliases.get? name with
  | none => exact Declarations.isPlain_nil
  | some entry => exact isPlain_emit entry raw

/-- What a prop contributes as an alias is plain. -/
theorem isPlain_asAlias (prop : String) (value : PropValue) :
    (resolver.asAlias prop value).declarations.IsPlain := by
  unfold asAlias
  cases resolver.config.aliases.get? prop with
  | none => exact Declarations.isPlain_nil
  | some entry =>
      simp only [aliasProp]
      cases aliasText value with
      | error problem => exact Declarations.isPlain_nil
      | ok text =>
          refine Resolution.isPlain_all fun part hpart => ?_
          obtain ⟨statement, _, rfl⟩ := List.mem_map.mp hpart
          exact resolver.isPlain_place (isPlain_emit entry _) prop _ none

/-- What a prop contributes as a selector is plain. -/
theorem isPlain_asSelector (prop : String) (value : PropValue) :
    (resolver.asSelector prop value).declarations.IsPlain := by
  unfold asSelector
  cases resolver.config.scopes.get? prop with
  | none => exact Declarations.isPlain_nil
  | some kind =>
      simp only [selectorProp]
      cases selectorText value with
      | error problem => exact Declarations.isPlain_nil
      | ok content =>
          obtain ⟨param, text⟩ := content
          simp only
          cases kind.key? param with
          | none => exact Declarations.isPlain_nil
          | some scope =>
              refine Resolution.isPlain_all fun part hpart => ?_
              obtain ⟨statement, _, rfl⟩ := List.mem_map.mp hpart
              exact resolver.isPlain_place (resolver.isPlain_items prop _) prop _ (some scope)

/-- Two style texts that are not empty, of which the longer one has one statement more: the last one
of the shorter once again. -/
structure RepeatsLast (longer shorter : String) : Prop where
  longer_ne : longer ≠ ""
  shorter_ne : shorter ≠ ""
  statements : ∃ last, (Statement.split shorter).getLast? = some last ∧
    Statement.split longer = Statement.split shorter ++ [last]

variable {resolver} {longer shorter : String}

/-- Plain resolutions of the statements of a style text agree if the last statement is repeated. -/
theorem RepeatsLast.agrees_all (h : RepeatsLast longer shorter) {f : String → Resolution}
    (hplain : ∀ part, (f part).declarations.IsPlain) :
    Agrees (.all ((Statement.split longer).map f)) (.all ((Statement.split shorter).map f)) := by
  obtain ⟨last, hlast, hsplit⟩ := h.statements
  rw [hsplit, List.map_append]
  refine Resolution.agrees_all_repeated (fun part hpart => ?_) ?_
  · obtain ⟨text, _, rfl⟩ := List.mem_map.mp hpart
    exact hplain text
  · rw [List.getLast?_map, hlast, Option.map_some]

/-- What a prop contributes as an alias does not change if the last statement is repeated. -/
theorem RepeatsLast.agrees_asAlias (h : RepeatsLast longer shorter) (prop : String)
    (param : Option String) :
    Agrees (resolver.asAlias prop (.styled param longer))
      (resolver.asAlias prop (.styled param shorter)) := by
  unfold asAlias
  cases resolver.config.aliases.get? prop with
  | none => exact ⟨rfl, rfl⟩
  | some entry =>
      cases param with
      | some param => exact ⟨rfl, rfl⟩
      | none =>
          simp only [PropValue.styled, aliasProp, aliasText, h.longer_ne, h.shorter_ne, if_false]
          exact h.agrees_all fun part =>
            resolver.isPlain_place (isPlain_emit entry _) prop _ none

/-- What a prop contributes as a selector does not change if the last statement is repeated. -/
theorem RepeatsLast.agrees_asSelector (h : RepeatsLast longer shorter) (prop : String)
    (param : Option String) :
    Agrees (resolver.asSelector prop (.styled param longer))
      (resolver.asSelector prop (.styled param shorter)) := by
  have htext : ∀ text, text ≠ "" → selectorText (.styled param text) = .ok (param, text) := by
    intro text hne
    cases param <;> simp [PropValue.styled, selectorText, hne]
  unfold asSelector
  cases resolver.config.scopes.get? prop with
  | none => exact ⟨rfl, rfl⟩
  | some kind =>
      simp only [selectorProp, htext longer h.longer_ne, htext shorter h.shorter_ne]
      cases kind.key? param with
      | none => exact ⟨rfl, rfl⟩
      | some scope =>
          exact h.agrees_all fun part =>
            resolver.isPlain_place (resolver.isPlain_items prop _) prop _ (some scope)

/-- One sweep over props comes to the same declarations if the value under a name contributes the
same. -/
theorem declarations_all_insert {contribution : String → PropValue → Resolution} {prop : String}
    {value other : PropValue} (h : Agrees (contribution prop value) (contribution prop other))
    (props : Props) :
    (Resolution.sweep contribution (props.insert prop value).entries).declarations =
      (Resolution.sweep contribution (props.insert prop other).entries).declarations := by
  simp only [Resolution.sweep, Resolution.declarations_all, List.map_map]
  exact congrArg (Declarations.mergeAll []) (Assoc.map_insert_congr h.declarations props.entries)

/-- A prop whose last statement is repeated resolves to the same, among other props and by
itself. -/
theorem RepeatsLast.resolve_eq (h : RepeatsLast longer shorter) (props : Props) (prop : String)
    (param : Option String) :
    (resolver.resolve (props.insert prop (.styled param longer))).declarations =
        (resolver.resolve (props.insert prop (.styled param shorter))).declarations ∧
      resolver.resolveProp? prop (.styled param longer) =
        resolver.resolveProp? prop (.styled param shorter) := by
  have halias : Agrees (resolver.asAlias prop (.styled param longer))
      (resolver.asAlias prop (.styled param shorter)) := h.agrees_asAlias prop param
  have hselector : Agrees (resolver.asSelector prop (.styled param longer))
      (resolver.asSelector prop (.styled param shorter)) := h.agrees_asSelector prop param
  refine ⟨?_, ?_⟩
  · simp only [Resolution.resolve_eq_sweep, Resolution.followedBy,
      declarations_all_insert halias, declarations_all_insert hselector]
  · simp only [resolveProp?, Resolution.declarations_all, Resolution.isClean_all, List.map_cons,
      List.all_cons, halias.declarations, halias.isClean, hselector.declarations,
      hselector.isClean]

/-- Merging a source that holds no list once more changes nothing, whatever the target and whatever
kinds of values the source replaces. So in every configuration and either mode, a style text whose
last bracket closes can be followed by its last statement once again: among any other props and by
itself, the prop resolves to the same declarations. -/
theorem merge_self_and_resolve_repeated :
    (∀ target source : Declarations, target.WellFormed → source.WellFormed →
      source.isListFree = true → (target.merge source).merge source = target.merge source) ∧
    ∀ (resolver : Resolver) (props : Props) (prop : String) (param : Option String)
      (text last : String), text ≠ "" → Statement.EndsClosed text →
      (Statement.split text).getLast? = some last →
      (resolver.resolve (props.insert prop (.styled param (text ++ "|" ++ last)))).declarations =
          (resolver.resolve (props.insert prop (.styled param text))).declarations ∧
        resolver.resolveProp? prop (.styled param (text ++ "|" ++ last)) =
          resolver.resolveProp? prop (.styled param text) := by
  refine ⟨fun target source htarget hsource hfree =>
    Declarations.merge_merge_self htarget ⟨hsource, hfree⟩, ?repeated⟩
  case repeated =>
    intro resolver props prop param text last hne hclosed hlast
    have hrepeats : RepeatsLast (text ++ "|" ++ last) text :=
      ⟨by simp, hne, last, hlast, Statement.split_repeated hclosed hlast⟩
    exact hrepeats.resolve_eq props prop param

/-- A source that changes the kind of every value of the target, and padding under a pseudo class
that is given twice, before another alias. -/
theorem merge_self_and_resolve_repeated_padding :
    let target : Declarations :=
      [("a", .list [.text "1"]), ("b", .text "2"), ("c", .nested [("x", .list [])])]
    let source : Declarations :=
      [("b", .nested [("y", .text "3")]), ("a", .nested []), ("d", .text "4"), ("c", .text "5")]
    let props : Props := Table.ofList [("p", .null), ("m", .text "1")]
    (target.WellFormed ∧ source.WellFormed ∧ source.isListFree = true ∧
        (target.merge source).merge source = target.merge source) ∧
      Statement.EndsClosed "4|:hover[8]" ∧
        (Statement.split "4|:hover[8]").getLast? = some ":hover[8]" ∧
        (resolve ⟨Config.builtin, true⟩
            (props.insert "p" (.text "4|:hover[8]|:hover[8]"))).declarations =
          (resolve ⟨Config.builtin, true⟩ (props.insert "p" (.text "4|:hover[8]"))).declarations ∧
        resolveProp? ⟨Config.builtin, true⟩ "p" (.text "4|:hover[8]|:hover[8]") =
          resolveProp? ⟨Config.builtin, true⟩ "p" (.text "4|:hover[8]") := by
  intro target source props
  have htarget : target.WellFormed := by
    simp [target, Declarations.WellFormed, Value.WellFormed, Value.WellFormedItems,
      Value.WellFormedEntries]
  have hsource : source.WellFormed := by
    simp [source, Declarations.WellFormed, Value.WellFormed, Value.WellFormedEntries]
  have hclosed : Statement.EndsClosed "4|:hover[8]" := by
    have hbrackets : ("4|:hover[8]".toList.filter Statement.isBracket).getLast? = some ']' := rfl
    intro c hc
    rw [hbrackets] at hc
    exact (Option.some.inj hc).symm
  have hlast : (Statement.split "4|:hover[8]").getLast? = some ":hover[8]" := by
    cbv
  obtain ⟨hmerge, hresolve⟩ := merge_self_and_resolve_repeated
  have hrepeated := hresolve ⟨Config.builtin, true⟩ props "p" none "4|:hover[8]" ":hover[8]"
    (by decide) hclosed hlast
  have htext : "4|:hover[8]" ++ "|" ++ ":hover[8]" = "4|:hover[8]|:hover[8]" := rfl
  rw [htext] at hrepeated
  exact ⟨⟨htarget, hsource, rfl, hmerge target source htarget hsource rfl⟩, hclosed, hlast,
    hrepeated⟩

end Resolver

end StyleProps
