import StyleProps.Proofs.Separated

/-!
# Texts and keys at paths

A path is the list of keys that leads from an object to one of its values. On objects whose scope
keys and property keys are told apart, a merge means a simple thing at every path: the source's text
hides the target's (`textAt?_merge`), and the source's new keys follow the target's
(`keysAt_merge`). For any number of sources, the text is that of the last source with one
(`textAt?_mergeAll`), and the keys stand in the order in which they first occur
(`keysAt_mergeAll`).
-/

namespace StyleProps.Declarations

/-- The text at a path. The empty path leads to no text. -/
def textAt? : Declarations → List String → Option String
  | _, [] => none
  | d, [key] => (d.get? key).bind Value.asText?
  | d, key :: next :: rest => (d.nested? key).bind fun inner => textAt? inner (next :: rest)

/-- The object at a path of scopes. The empty path leads to the object itself. -/
def objectAt? : Declarations → List String → Option Declarations
  | d, [] => some d
  | d, key :: rest => (d.nested? key).bind fun inner => objectAt? inner rest

/-- The keys of the object at a path, in order; none if there is no object. -/
def keysAt (d : Declarations) (path : List String) : List String :=
  ((d.objectAt? path).getD []).keys

/-- Whether a text is the one that the last source with a text at a path has there. -/
def LastWrite (sources : List Declarations) (path : List String) (content : String) : Prop :=
  ∃ before source after, sources = before ++ source :: after ∧
    source.textAt? path = some content ∧ ∀ later ∈ after, later.textAt? path = none

/-- The empty object holds no text. -/
@[simp] theorem textAt?_nil (path : List String) : textAt? [] path = none := by
  cases path with
  | nil => rfl
  | cons key rest => cases rest <;> rfl

/-- The empty object holds no keys at any path. -/
@[simp] theorem keysAt_nil (path : List String) : keysAt [] path = [] := by
  cases path <;> rfl

/-- What occurred before need not be repeated. -/
theorem eraseDups_append_filter (keys others rest : List String) :
    (keys ++ (others.filter (fun key => key ∉ keys) ++ rest)).eraseDups =
      (keys ++ (others ++ rest)).eraseDups := by
  have hremove : (others.filter (fun key => key ∉ keys) ++ rest).removeAll keys =
      (others ++ rest).removeAll keys := by
    simp [List.removeAll, List.filter_append, List.filter_filter]
  rw [List.eraseDups_append, List.eraseDups_append, hremove]

/-- Below a scope key, texts are those of the scope. -/
theorem textAt?_cons_cons (d : Declarations) (key next : String) (rest : List String) :
    d.textAt? (key :: next :: rest) = ((d.nested? key).getD []).textAt? (next :: rest) := by
  rw [textAt?]
  cases d.nested? key with
  | none => exact (textAt?_nil _).symm
  | some inner => rfl

/-- Below a scope key, keys are those of the scope. -/
theorem keysAt_cons (d : Declarations) (key : String) (rest : List String) :
    d.keysAt (key :: rest) = ((d.nested? key).getD []).keysAt rest := by
  unfold keysAt
  rw [objectAt?]
  cases d.nested? key with
  | none => exact (keysAt_nil rest).symm
  | some inner => rfl

/-- Below a key with a scope, texts are those of the scope. -/
theorem textAt?_of_nested {d inner : Declarations} {key : String}
    (h : d.get? key = some (.nested inner)) {path : List String} (hpath : path ≠ []) :
    d.textAt? (key :: path) = inner.textAt? path := by
  cases path with
  | nil => exact absurd rfl hpath
  | cons next rest => rw [textAt?_cons_cons, nested?_eq_some_iff.mpr h, Option.getD_some]

/-- Below a key with a scope, keys are those of the scope. -/
theorem keysAt_of_nested {d inner : Declarations} {key : String}
    (h : d.get? key = some (.nested inner)) (path : List String) :
    d.keysAt (key :: path) = inner.keysAt path := by
  rw [keysAt_cons, nested?_eq_some_iff.mpr h, Option.getD_some]

/-! ## Merging -/

namespace Separated

variable {scope : String → Prop} {target source : Declarations}

/-- On objects of this shape, the scope under a key of a merge is the merge of both scopes. -/
theorem nested?_getD_merge (htarget : Separated scope target) (hsource : Separated scope source)
    (key : String) :
    ((target.merge source).nested? key).getD [] =
      ((target.nested? key).getD []).merge ((source.nested? key).getD []) :=
  nested?_merge_getD target hsource.keys_nodup fun _ _ hleft hmiddle =>
    hsource.exists_nested hmiddle (htarget.scope_of_nested hleft)

/-- On a merge, the source's text at a path hides the target's. -/
theorem textAt?_merge (htarget : Separated scope target) (hsource : Separated scope source)
    (path : List String) :
    (target.merge source).textAt? path = (source.textAt? path).or (target.textAt? path) := by
  induction path generalizing target source with
  | nil => rfl
  | cons key rest ih =>
      cases rest with
      | nil =>
          simp only [textAt?]
          cases hincoming : source.get? key with
          | none => rw [get?_merge_of_none target hsource.keys_nodup hincoming]; rfl
          | some incoming =>
              rw [get?_merge_of_some target hsource.keys_nodup hincoming]
              by_cases hkey : scope key
              · obtain ⟨inner, rfl⟩ := hsource.exists_nested hincoming hkey
                -- A scope of the source hides no text: the target can only have a scope there.
                cases hstored : target.get? key with
                | none => rfl
                | some stored =>
                    obtain ⟨other, rfl⟩ := htarget.exists_nested hstored hkey
                    rfl
              · obtain ⟨content, rfl⟩ := hsource.exists_text hincoming hkey
                rfl
      | cons next rest =>
          simp only [textAt?_cons_cons]
          rw [htarget.nested?_getD_merge hsource]
          exact ih (htarget.nested?_getD key) (hsource.nested?_getD key)

/-- On a merge, the keys at a path are the target's and then the new ones of the source. -/
theorem keysAt_merge (htarget : Separated scope target) (hsource : Separated scope source)
    (path : List String) :
    (target.merge source).keysAt path = target.keysAt path ++
      (source.keysAt path).filter fun key => key ∉ target.keysAt path := by
  induction path generalizing target source with
  | nil => exact keys_merge target hsource.keys_nodup
  | cons key rest ih =>
      simp only [keysAt_cons]
      rw [htarget.nested?_getD_merge hsource]
      exact ih (htarget.nested?_getD key) (hsource.nested?_getD key)

/-- The keys at a path are distinct. -/
theorem nodup_keysAt {d : Declarations} (h : Separated scope d) (path : List String) :
    (d.keysAt path).Nodup := by
  induction path generalizing d with
  | nil => exact h.keys_nodup
  | cons key rest ih =>
      rw [keysAt_cons]
      exact ih (h.nested?_getD key)

/-- After any number of merges, the text at a path is found by looking backwards through the
sources, and then in the target. -/
theorem textAt?_mergeAll {sources : List Declarations} (htarget : Separated scope target)
    (h : ∀ source ∈ sources, Separated scope source) (path : List String) :
    (target.mergeAll sources).textAt? path =
      (sources.reverse.findSome? (·.textAt? path)).or (target.textAt? path) := by
  induction sources generalizing target with
  | nil => rfl
  | cons source rest ih =>
      have hsource := h source List.mem_cons_self
      have hstep : (target.mergeAll (source :: rest)).textAt? path =
          (rest.reverse.findSome? (·.textAt? path)).or ((target.merge source).textAt? path) :=
        ih (htarget.merge hsource) fun other hother => h other (List.mem_cons_of_mem _ hother)
      rw [hstep, htarget.textAt?_merge hsource, List.reverse_cons, List.findSome?_append,
        Option.or_assoc]
      congr 2
      cases hcontent : source.textAt? path <;> simp [hcontent]

/-- After any number of merges, the keys at a path stand in the order in which they first occur. -/
theorem keysAt_mergeAll {sources : List Declarations} (htarget : Separated scope target)
    (h : ∀ source ∈ sources, Separated scope source) (path : List String) :
    (target.mergeAll sources).keysAt path =
      (target.keysAt path ++ sources.flatMap (·.keysAt path)).eraseDups := by
  induction sources generalizing target with
  | nil =>
      rw [List.flatMap_nil, List.append_nil, Assoc.eraseDups_of_nodup (htarget.nodup_keysAt path)]
      rfl
  | cons source rest ih =>
      have hsource := h source List.mem_cons_self
      have hstep : (target.mergeAll (source :: rest)).keysAt path =
          ((target.merge source).keysAt path ++ rest.flatMap (·.keysAt path)).eraseDups :=
        ih (htarget.merge hsource) fun other hother => h other (List.mem_cons_of_mem _ hother)
      rw [hstep, htarget.keysAt_merge hsource, List.flatMap_cons, List.append_assoc,
        eraseDups_append_filter]

end Separated

/-- Looking backwards for a text finds the one of the last source that has one. -/
theorem findSome?_reverse_eq_some_iff {sources : List Declarations} {path : List String}
    {content : String} :
    sources.reverse.findSome? (·.textAt? path) = some content ↔
      LastWrite sources path content := by
  rw [List.findSome?_eq_some_iff]
  constructor
  · rintro ⟨after, source, before, heq, hcontent, hafter⟩
    refine ⟨before.reverse, source, after.reverse, ?_, hcontent, ?_⟩
    · rw [← List.reverse_reverse sources, heq]
      simp
    · exact fun later hlater => hafter later (List.mem_reverse.mp hlater)
  · rintro ⟨before, source, after, rfl, hcontent, hafter⟩
    refine ⟨after.reverse, source, before.reverse, by simp, hcontent, ?_⟩
    exact fun later hlater => hafter later (List.mem_reverse.mp hlater)

end StyleProps.Declarations
