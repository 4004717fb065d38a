import StyleProps.Proofs.FlatFold
import StyleProps.Proofs.Paths

/-!
# The shape of resolved objects

What every object that the built-in configuration resolves props to looks like. The main result,
`layered_resolve`, says that at every depth keys are distinct, the keys that start like a selector
or like a media query are the ones that open scopes, all other keys hold texts, and media queries
stand at the top only. A rule is put under a media query last, so the scopes inside of an object
have the shape of rules, which is that of a configuration without media aliases (`TopQueries`).
-/

namespace StyleProps

/-- Whether a key starts like a selector. -/
def IsSelectorKey (key : String) : Prop :=
  "&".toList <+: key.toList

/-- Whether a key starts like a media query. -/
def IsQueryKey (key : String) : Prop :=
  "@media".toList <+: key.toList

/-- Whether a key starts like one of those that open scopes. -/
def OpensScope (key : String) : Prop :=
  IsSelectorKey key ∨ IsQueryKey key

/-- No key starts both ways. -/
theorem not_isSelectorKey_of_isQueryKey {key : String} (h : IsQueryKey key) :
    ¬ IsSelectorKey key := by
  rintro ⟨rest, hrest⟩
  obtain ⟨other, hother⟩ := h
  rw [← hother] at hrest
  exact absurd (List.cons.inj hrest).1 (by decide)

namespace Declarations

/-- The shape of a resolved object, and of the scopes inside of one: keys are distinct; exactly the
keys that start like a selector or like a media query open nested scopes, and all others hold texts;
and a media query stands at the top only. -/
inductive Layered : (top : Bool) → Declarations → Prop where
  | intro {top : Bool} {d : Declarations} (nodup : d.keys.Nodup)
      (nested : ∀ key value, (key, value) ∈ d →
        ((∃ inner, value = .nested inner) ↔ OpensScope key))
      (text : ∀ key value, (key, value) ∈ d → ¬ OpensScope key → ∃ content, value = .text content)
      (query : ∀ key ∈ d.keys, IsQueryKey key → top = true)
      (inner : ∀ key inner, (key, .nested inner) ∈ d → Layered false inner) :
      Layered top d

/-- Whether keys open scopes or hold texts by the way in which they start, where a media query opens
a scope at the top only. -/
structure TopQueries (d : Declarations) : Prop where
  separated : Separated OpensScope d
  inner : ∀ key inner, d.get? key = some (.nested inner) → Separated IsSelectorKey inner

/-! ## Media queries at the top -/

/-- An object in which media queries open no scopes, but would have to, has none. -/
theorem Separated.not_isQueryKey {d : Declarations} (hselector : Separated IsSelectorKey d)
    (h : Separated OpensScope d) {key : String} (hkey : key ∈ d.keys) : ¬ IsQueryKey key := by
  intro hquery
  obtain ⟨⟨k, value⟩, hmem, rfl⟩ := List.mem_map.mp hkey
  have hget : d.get? k = some value := Assoc.get?_of_mem h.keys_nodup hmem
  obtain ⟨inner, hinner⟩ := h.exists_nested hget (Or.inr hquery)
  obtain ⟨content, hcontent⟩ :=
    hselector.exists_text hget (not_isSelectorKey_of_isQueryKey hquery)
  rw [hinner] at hcontent
  cases hcontent

/-- Where scopes are opened by their keys, media queries at the top only, an object has the
shape. -/
theorem Separated.layered {d : Declarations} (h : Separated OpensScope d) {top : Bool}
    (hquery : ∀ key ∈ d.keys, IsQueryKey key → top = true)
    (hinner : ∀ key inner, d.get? key = some (.nested inner) → Separated IsSelectorKey inner) :
    Layered top d := by
  induction h generalizing top with
  | @intro d nodup text nested inner ih =>
      have hget : ∀ key value, (key, value) ∈ d → d.get? key = some value :=
        fun key value hmem => Assoc.get?_of_mem nodup hmem
      refine .intro nodup ?_ ?_ hquery ?_
      · intro key value hmem
        constructor
        · rintro ⟨object, rfl⟩
          refine Classical.byContradiction fun hkey => ?_
          obtain ⟨content, hcontent⟩ := text key _ (hget key _ hmem) hkey
          cases hcontent
        · exact nested key value (hget key value hmem)
      · exact fun key value hmem => text key value (hget key value hmem)
      · intro key object hmem
        have hobject := hinner key object (hget key _ hmem)
        have hnone : ∀ k ∈ object.keys, ¬ IsQueryKey k := fun k hk =>
          hobject.not_isQueryKey (inner key object (hget key _ hmem)) hk
        exact ih key object (hget key _ hmem) (fun k hk hq => absurd hq (hnone k hk))
          fun k below hbelow => hobject.of_nested hbelow

namespace TopQueries

/-- The empty object holds no media queries. -/
theorem nil : TopQueries [] where
  separated := .nil
  inner key inner h := by simp at h

/-- An object of this kind has the shape of a resolved one. -/
theorem layered {d : Declarations} (h : TopQueries d) : Layered true d :=
  h.separated.layered (fun _ _ _ => rfl) h.inner

/-- The scope under a key, or the empty object, has no media queries inside. -/
theorem nested?_getD {d : Declarations} (h : TopQueries d) (key : String) :
    Separated IsSelectorKey ((d.nested? key).getD []) := by
  cases hget : d.nested? key with
  | none => exact .nil
  | some inner => exact h.inner key inner (nested?_eq_some_iff.mp hget)

/-- Merging keeps media queries at the top. -/
theorem merge {target source : Declarations} (htarget : TopQueries target)
    (hsource : TopQueries source) : TopQueries (target.merge source) where
  separated := htarget.separated.merge hsource.separated
  inner key inner hget := by
    have hmerge := htarget.separated.nested?_getD_merge hsource.separated key
    rw [nested?_eq_some_iff.mpr hget, Option.getD_some] at hmerge
    rw [hmerge]
    exact (htarget.nested?_getD key).merge (hsource.nested?_getD key)

/-- Merging any number of sources keeps media queries at the top. -/
theorem mergeAll {sources : List Declarations} {target : Declarations} (htarget : TopQueries target)
    (h : ∀ source ∈ sources, TopQueries source) : TopQueries (target.mergeAll sources) :=
  mergeAll_induction (fun _ _ => merge) htarget h

end TopQueries

end Declarations

namespace Config

open Declarations (Layered Separated TopQueries)

/-- A configuration without its media aliases. -/
def withoutMedia (config : Config) : Config :=
  { config with media := Table.empty }

variable {config : Config}

/-- A rule that is put under a media query, or under none, is an object with media queries at the
top. -/
theorem topQueries_underQuery (h : config.SortsKeys OpensScope) {media : Option String}
    {rule placed : Declarations} (hrule : Separated OpensScope rule)
    (hselector : Separated IsSelectorKey rule)
    (hplaced : config.underQuery? media rule = some placed) : TopQueries placed where
  separated := h.underQuery hrule hplaced
  inner key inner hget := by
    cases media with
    | none =>
        obtain rfl := Option.some.inj hplaced
        exact hselector.of_nested hget
    | some name =>
        obtain ⟨query, _, rfl⟩ := Option.map_eq_some_iff.mp hplaced
        have hmem : (key, Value.nested inner) ∈ rule.wrap query := Assoc.mem_of_get? hget
        obtain ⟨_, rfl⟩ : key = query ∧ inner = rule := by
          simpa [Declarations.wrap] using hmem
        exact hselector

/-- In the fragments of props, media queries stand at the top. -/
theorem topQueries_of_mem_fragments (h : config.SortsKeys OpensScope)
    (hselector : config.withoutMedia.SortsKeys IsSelectorKey) {props : Props}
    {fragment : Declarations} (hmem : fragment ∈ config.fragments props) :
    TopQueries fragment := by
  -- A rule is made without looking at the media aliases.
  rcases List.mem_append.mp hmem with halias | hscoped
  · obtain ⟨⟨prop, value⟩, _, hfragment⟩ := List.mem_flatMap.mp halias
    obtain ⟨entry, statement, hentry, hplaced⟩ := exists_of_mem_fragmentsAsAlias hfragment
    exact topQueries_underQuery h (h.aliasRule hentry statement)
      (hselector.aliasRule hentry statement) hplaced
  · obtain ⟨⟨prop, value⟩, _, hfragment⟩ := List.mem_flatMap.mp hscoped
    obtain ⟨kind, param, key, statement, hkey, hplaced⟩ :=
      exists_of_mem_fragmentsAsSelector hfragment
    exact topQueries_underQuery h (h.selectorRule hkey statement)
      (hselector.selectorRule hkey statement) hplaced

/-! ## The built-in configuration -/

/-- What starts with an ampersand starts like a selector. -/
theorem isSelectorKey_append (rest : String) : IsSelectorKey ("&" ++ rest) := by
  rw [IsSelectorKey, String.toList_append]
  exact List.prefix_append _ _

/-- In the built-in configuration, the way in which a key starts tells whether it opens a scope. -/
theorem builtin_sortsKeys : builtin.SortsKeys OpensScope where
  ampersand rest := Or.inl (isSelectorKey_append rest)
  query name query hquery := by
    rw [builtin_media] at hquery
    exact Or.inr (MediaTable.prefix_of_builtin hquery)
  quoted name entry key hentry hscope := Or.inl ((builtin_isPlain hentry).scope key hscope)
  property name entry hentry property hproperty := by
    have hplain := builtin_isPlain hentry
    rintro (hselector | hquery)
    · exact hplain.not_ampersand property hproperty hselector
    · exact hplain.not_media property hproperty hquery

/-- Without the media aliases, only keys that start like a selector open scopes. -/
theorem builtin_withoutMedia_sortsKeys : builtin.withoutMedia.SortsKeys IsSelectorKey where
  ampersand := isSelectorKey_append
  query name query hquery := by cases hquery
  quoted name entry key hentry hscope := by
    have hplain : entry.emitter.IsPlain := builtin_isPlain hentry
    exact hplain.scope key hscope
  property name entry hentry property hproperty := by
    have hplain : entry.emitter.IsPlain := builtin_isPlain hentry
    exact hplain.not_ampersand property hproperty

end Config

/-- Under the built-in configuration, in either mode, all props resolve to an object in which at
every depth keys are distinct, exactly the keys that start like a selector or like a media query
open scopes, all others hold texts, and media queries stand at the top only. -/
theorem Resolver.layered_resolve (strict : Bool) (props : Props) :
    Declarations.Layered true (resolve ⟨Config.builtin, strict⟩ props).declarations := by
  have hsorts : (Resolver.mk Config.builtin strict).config.SortsKeys OpensScope :=
    Config.builtin_sortsKeys
  rw [declarations_resolve hsorts props]
  exact (Declarations.TopQueries.nil.mergeAll fun fragment hmem =>
    Config.topQueries_of_mem_fragments Config.builtin_sortsKeys
      Config.builtin_withoutMedia_sortsKeys hmem).layered

end StyleProps
