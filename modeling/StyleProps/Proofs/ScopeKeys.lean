import StyleProps.Proofs.Lexing
import StyleProps.Proofs.Nesting
import StyleProps.Selector.Builtin

/-!
# What scope keys stand for

The key of a scope is a text that is put together from a name and a parameter or a target.
`Selector` is what it stands for, and `SelectorToken.selector?` what a token selects; the key of the
token is the key of its selector (`key?_eq_map_selector?`). A key falls into a lead without name
characters, a name and an argument, which determine the selector (`Selector.eq_of_key_eq`), provided
that the name is one, as it is for the tokens of a text and the built-in names. The main result is
`Statement.selector?_eq_of_key?_eq`: tokens with one scope key select the same, and so do the tokens
of statements that are nested in the same scopes.
-/

namespace StyleProps

/-! ## Selectors and their keys -/

/-- What a scope selects, seen from the current element. -/
inductive Selector where
  /-- The element in a state. -/
  | pseudoClass (css : String)
  /-- A part of the element. -/
  | pseudoElement (css : String)
  /-- The element in a state that a parameter describes. -/
  | functional (css param : String)
  /-- The elements that a combinator joins to it. -/
  | combinator (joint : Combinator) (target : String)
deriving DecidableEq, Repr

/-- What a kind of selector selects with a parameter, or `none` if it lacks a parameter that it
needs. -/
def SelectorKind.selector? (param : Option String) : SelectorKind → Option Selector
  | .pseudoClass css => some (.pseudoClass css)
  | .pseudoElement css => some (.pseudoElement css)
  | .functional css => (param.filter (· ≠ "")).map (.functional css)
  | .combinator joint => (param.filter (· ≠ "")).map (.combinator joint)

/-- What a token selects, if its name is known and it lacks no parameter. -/
def SelectorToken.selector? (table : SelectorTable) : SelectorToken → Option Selector
  | .named name => (table.get? name).bind (·.selector? none)
  | .functional name param => (table.get? name).bind (·.selector? (some param))
  | .combinator joint target => some (.combinator joint target)

/-- What tokens select, in order. -/
def SelectorTable.selectors (table : SelectorTable) (tokens : List SelectorToken) : List Selector :=
  tokens.filterMap (·.selector? table)

namespace Selector

/-- The key of the scope of a selector. -/
def key : Selector → String
  | .pseudoClass css => "&:" ++ css
  | .pseudoElement css => "&::" ++ css
  | .functional css param => "&:" ++ css ++ "(" ++ param ++ ")"
  | .combinator joint target => joint.selector target

/-- The characters of a key in front of its name. -/
def lead : Selector → List Char
  | .pseudoClass _ => ['&', ':']
  | .pseudoElement _ => ['&', ':', ':']
  | .functional _ _ => ['&', ':']
  | .combinator joint _ => '&' :: ' ' :: joint.symbolChars

/-- The name in a key. -/
def name : Selector → String
  | .pseudoClass css => css
  | .pseudoElement css => css
  | .functional css _ => css
  | .combinator _ target => target

/-- The characters of a key behind its name. -/
def argument : Selector → List Char
  | .functional _ param => '(' :: (param.toList ++ [')'])
  | _ => []

/-- A key is its lead, its name and its argument. -/
theorem toList_key (selector : Selector) :
    selector.key.toList = selector.lead ++ (selector.name.toList ++ selector.argument) := by
  cases selector with
  | pseudoClass css => simp [key, lead, name, argument]
  | pseudoElement css => simp [key, lead, name, argument]
  | functional css param => simp [key, lead, name, argument]
  | combinator joint target => simp [key, lead, name, argument, Combinator.toList_selector]

end Selector

/-- The key of a kind of selector is that of what it selects. -/
theorem SelectorKind.key?_eq_map_selector? (kind : SelectorKind) (param : Option String) :
    kind.key? param = (kind.selector? param).map Selector.key := by
  cases kind with
  | pseudoClass css | pseudoElement css => rfl
  | functional css | combinator joint =>
      rw [key?, selector?, Option.map_map]
      rfl

/-- The key of a token is that of what it selects. -/
theorem SelectorToken.key?_eq_map_selector? (table : SelectorTable) (token : SelectorToken) :
    token.key? table = (token.selector? table).map Selector.key := by
  cases token with
  | combinator joint target => rfl
  | named name | functional name param =>
      simp only [key?, SelectorTable.key?, selector?, Option.map_bind,
        SelectorKind.key?_eq_map_selector?]
      rfl

/-- The keys of the scopes that tokens open are those of what they select. -/
theorem scopeKeys_eq_map_selectors (table : SelectorTable) (tokens : List SelectorToken) :
    table.scopeKeys tokens = (table.selectors tokens).map Selector.key := by
  rw [SelectorTable.scopeKeys, SelectorTable.selectors, List.map_filterMap]
  exact congrArg (tokens.filterMap ·) (funext fun token => token.key?_eq_map_selector? table)

/-! ## Names -/

/-- Whether a character may stand in a name: a character of a word, or a hyphen. -/
def isNameChar (c : Char) : Bool :=
  Statement.isWord c || c = '-'

/-- Whether a text is a name, of a pseudo class or element or of a target. -/
def IsName (text : String) : Prop :=
  text ≠ "" ∧ ∀ c ∈ text.toList, isNameChar c = true

/-- Names can be told by looking at each character. -/
instance (text : String) : Decidable (IsName text) :=
  decidable_of_iff (text ≠ "" ∧ text.toList.all isNameChar = true)
    (and_congr Iff.rfl List.all_eq_true)

/-- A word is a name. -/
theorem IsWordText.isName {text : String} (h : IsWordText text) : IsName text := by
  refine ⟨h.1, fun c hc => ?_⟩
  rw [isNameChar, h.2 c hc, Bool.true_or]

/-- A text that starts with a name starts with a character that may stand in one. -/
theorem IsName.head {text : String} (h : IsName text) (rest : List Char) :
    ∀ c ∈ (text.toList ++ rest).head?, (!isNameChar c) = false := by
  intro c hc
  cases hchars : text.toList with
  | nil => exact absurd (by simpa using hchars) h.1
  | cons first tail =>
      rw [hchars] at hc
      obtain rfl := Option.some.inj hc
      rw [h.2 first (by simp [hchars])]
      rfl

/-- Combinators are told by their symbols. -/
theorem Combinator.symbolChars_inj {joint other : Combinator} :
    joint.symbolChars = other.symbolChars ↔ joint = other := by
  cases joint <;> cases other <;> decide

namespace Selector

/-- No character in front of the name may stand in a name. -/
theorem isNameChar_of_mem_lead (selector : Selector) :
    ∀ c ∈ selector.lead, (!isNameChar c) = true := by
  rw [← List.all_eq_true]
  cases selector with
  | pseudoClass css | pseudoElement css | functional css param => rfl
  | combinator joint target => cases joint <;> rfl

/-- The argument does not continue the name. -/
theorem isNameChar_of_head_argument (selector : Selector) :
    ∀ c ∈ selector.argument.head?, isNameChar c = false := by
  cases selector with
  | functional css param =>
      intro c hc
      obtain rfl := Option.some.inj hc
      rfl
  | pseudoClass css | pseudoElement css | combinator joint target => exact fun c hc => nomatch hc

/-- The lead, the name and the argument make the selector. -/
theorem ext_parts {first second : Selector} (hlead : first.lead = second.lead)
    (hname : first.name = second.name) (hargument : first.argument = second.argument) :
    first = second := by
  cases first <;> cases second <;>
    simp_all [lead, name, argument, Combinator.symbolChars_inj, String.toList_inj]

/-- Selectors with one key are the same, provided that their names are names. -/
theorem eq_of_key_eq {first second : Selector} (hfirst : IsName first.name)
    (hsecond : IsName second.name) (h : first.key = second.key) : first = second := by
  have hchars : first.lead ++ (first.name.toList ++ first.argument) =
      second.lead ++ (second.name.toList ++ second.argument) := by
    rw [← toList_key, ← toList_key, h]
  obtain ⟨hleads, hrest⟩ := Text.append_inj_of_stop first.isNameChar_of_mem_lead
    (hfirst.head _) second.isNameChar_of_mem_lead (hsecond.head _) hchars
  obtain ⟨hnames, harguments⟩ := Text.append_inj_of_stop hfirst.2
    first.isNameChar_of_head_argument hsecond.2 second.isNameChar_of_head_argument hrest
  exact ext_parts hleads (String.toList_inj.mp hnames) harguments

/-- Selectors with names are told by their keys, one by one. -/
theorem eq_of_map_key_eq {selectors others : List Selector}
    (hnames : ∀ selector ∈ selectors, IsName selector.name)
    (hothers : ∀ selector ∈ others, IsName selector.name)
    (h : selectors.map key = others.map key) : selectors = others := by
  induction selectors generalizing others with
  | nil => exact (List.map_eq_nil_iff.mp h.symm).symm
  | cons first rest ih =>
      cases others with
      | nil => cases h
      | cons second tail =>
          rw [List.forall_mem_cons] at hnames hothers
          obtain ⟨hkey, hkeys⟩ := List.cons.inj h
          rw [eq_of_key_eq hnames.1 hothers.1 hkey, ih hnames.2 hothers.2 hkeys]

end Selector

/-! ## The selectors of a text -/

/-- Whether a kind of selector is a pseudo class or element whose name is one. -/
def SelectorKind.IsNamed : SelectorKind → Prop
  | .pseudoClass css | .pseudoElement css | .functional css => IsName css
  | .combinator _ => False

/-- Kinds with names can be told by looking at the names. -/
instance : DecidablePred SelectorKind.IsNamed
  | .pseudoClass css | .pseudoElement css | .functional css =>
      inferInstanceAs (Decidable (IsName css))
  | .combinator _ => inferInstanceAs (Decidable False)

/-- The selectors known as tokens are pseudo classes and elements with names. -/
theorem SelectorTable.isNamed_of_builtinTokens {name : String} {kind : SelectorKind}
    (h : builtinTokens.get? name = some kind) : kind.IsNamed := by
  have hall : ∀ pair ∈ builtinTokens.entries, pair.2.IsNamed := by decide +kernel
  exact hall _ (Assoc.mem_of_get? h)

/-- What a kind with a name selects has a name. -/
theorem SelectorKind.IsNamed.isName {kind : SelectorKind} (h : kind.IsNamed)
    {param : Option String} {selector : Selector}
    (hselector : kind.selector? param = some selector) : IsName selector.name := by
  cases kind with
  | pseudoClass css | pseudoElement css =>
      obtain rfl := Option.some.inj hselector
      exact h
  | functional css =>
      obtain ⟨p, _, rfl⟩ := Option.map_eq_some_iff.mp hselector
      exact h
  | combinator joint => exact h.elim

/-- What a well-spelled token selects has a name. -/
theorem SelectorToken.WellSpelled.isName {token : SelectorToken} (h : token.WellSpelled)
    {selector : Selector}
    (hselector : token.selector? SelectorTable.builtinTokens = some selector) :
    IsName selector.name := by
  cases token with
  | combinator joint target =>
      obtain rfl := Option.some.inj hselector
      exact IsWordText.isName h.word
  | named name | functional name param =>
      obtain ⟨kind, hkind, hselects⟩ := Option.bind_eq_some_iff.mp hselector
      exact (SelectorTable.isNamed_of_builtinTokens hkind).isName hselects

/-! ## Shared scopes -/

/-- As far as keys go under which a rule was put, a path of scopes consists of them. -/
theorem Declarations.prefix_of_objectAt? {rule : Declarations} {keys path : List String}
    (h : ((keys.foldr (fun key inner => wrap inner key) rule).objectAt? path).isSome)
    (hlength : path.length ≤ keys.length) : path <+: keys := by
  induction path generalizing keys with
  | nil => exact List.nil_prefix
  | cons first path ih =>
      cases keys with
      | nil => cases hlength
      | cons key keys =>
          obtain ⟨inner, hreached⟩ := Option.isSome_iff_exists.mp h
          obtain ⟨scope, hscope, hinner⟩ := Option.bind_eq_some_iff.mp hreached
          have hentry := Assoc.mem_of_get? (nested?_eq_some_iff.mp hscope)
          -- The only entry is the one that the rest of the keys were put under.
          rw [List.foldr_cons, wrap, List.mem_singleton, Prod.mk.injEq, Value.nested.injEq]
            at hentry
          obtain ⟨rfl, rfl⟩ := hentry
          refine List.cons_prefix_cons.mpr ⟨rfl, ih ?_ (Nat.le_of_succ_le_succ hlength)⟩
          rw [hinner]
          rfl

/-- A path of scopes in a nested rule is led by the first of the selectors. -/
theorem map_key_take_selectors {table : SelectorTable} {rule : Declarations}
    {tokens : List SelectorToken} {path : List String}
    (h : ((nest table rule tokens).1.objectAt? path).isSome)
    (hlength : path.length ≤ (table.selectors tokens).length) :
    ((table.selectors tokens).take path.length).map Selector.key = path := by
  rw [nest_eq, scopeKeys_eq_map_selectors] at h
  have hprefix := Declarations.prefix_of_objectAt? h (by rwa [List.length_map])
  rw [List.map_take]
  exact (List.prefix_iff_eq_take.mp hprefix).symm

namespace Statement

open SelectorTable (builtinTokens)

/-- The selectors of a text have names. -/
theorem isName_of_mem_selectors {text : String} {selector : Selector}
    (h : selector ∈ builtinTokens.selectors (parse text).selectors) : IsName selector.name := by
  obtain ⟨token, htoken, hselector⟩ := List.mem_filterMap.mp h
  exact (wellSpelled_of_mem_selectors htoken).isName hselector

/-- Tokens of any two texts that open scopes with one key select the same. Where the tokens of two
statements put rules, whatever these are, into a scope at the same path, the tokens that lead there
select the same, one by one. -/
theorem selector?_eq_of_key?_eq (text other : String) :
    (∀ token ∈ (parse text).selectors, ∀ twin ∈ (parse other).selectors, ∀ key,
      token.key? builtinTokens = some key → twin.key? builtinTokens = some key →
        ∃ selector, token.selector? builtinTokens = some selector ∧
          twin.selector? builtinTokens = some selector) ∧
    ∀ (rule twinRule : Declarations) (path : List String),
      ((nest builtinTokens rule (parse text).selectors).1.objectAt? path).isSome →
      ((nest builtinTokens twinRule (parse other).selectors).1.objectAt? path).isSome →
      path.length ≤ (builtinTokens.selectors (parse text).selectors).length →
      path.length ≤ (builtinTokens.selectors (parse other).selectors).length →
        (builtinTokens.selectors (parse text).selectors).take path.length =
          (builtinTokens.selectors (parse other).selectors).take path.length := by
  refine ⟨fun token htoken twin htwin key hkey htwinKey => ?single, ?path⟩
  case single =>
    rw [SelectorToken.key?_eq_map_selector?] at hkey htwinKey
    obtain ⟨selector, hselector, rfl⟩ := Option.map_eq_some_iff.mp hkey
    obtain ⟨twinSelector, htwinSelector, hkeys⟩ := Option.map_eq_some_iff.mp htwinKey
    have hname := (wellSpelled_of_mem_selectors htoken).isName hselector
    have htwinName := (wellSpelled_of_mem_selectors htwin).isName htwinSelector
    obtain rfl := Selector.eq_of_key_eq htwinName hname hkeys
    exact ⟨_, hselector, htwinSelector⟩
  case path =>
    intro rule twinRule path hscope htwinScope hlength htwinLength
    refine Selector.eq_of_map_key_eq
      (fun selector hmem => isName_of_mem_selectors (List.mem_of_mem_take hmem))
      (fun selector hmem => isName_of_mem_selectors (List.mem_of_mem_take hmem)) ?_
    rw [map_key_take_selectors hscope hlength, map_key_take_selectors htwinScope htwinLength]

/-- A pseudo class with a parameter that it passes over, and the same one without: two statements
share this scope and the one inside of it, although only one of them goes on to a child, and passes
over a name that is not known. -/
theorem selector?_eq_of_key?_eq_hover :
    let text := ":hover(x):not(.a)=red"
    let other := "::hover:zz:not(.a)&>li=blue"
    let token : SelectorToken := .functional "hover" "x"
    let twin : SelectorToken := .named "hover"
    token.key? builtinTokens = some "&:hover" ∧ twin.key? builtinTokens = some "&:hover" ∧
      (∃ selector, token.selector? builtinTokens = some selector ∧
        twin.selector? builtinTokens = some selector) ∧
      (builtinTokens.selectors (parse text).selectors).take 2 =
        (builtinTokens.selectors (parse other).selectors).take 2 := by
  intro text other token twin
  have htoken : token ∈ (parse text).selectors := by decide +kernel
  have htwin : twin ∈ (parse other).selectors := by decide +kernel
  have hkey : token.key? builtinTokens = some "&:hover" := by decide +kernel
  have htwinKey : twin.key? builtinTokens = some "&:hover" := by decide +kernel
  obtain ⟨hselector, hpath⟩ := selector?_eq_of_key?_eq text other
  exact ⟨hkey, htwinKey, hselector token htoken twin htwin _ hkey htwinKey,
    hpath [] [] ["&:hover", "&:not(.a)"] (by decide +kernel) (by decide +kernel)
      (by decide +kernel) (by decide +kernel)⟩

end Statement

end StyleProps
