import StyleProps.Proofs.JsonTokens

/-!
# Reading JSON documents

The reader of documents is a machine that takes one token after another. `State.After` says which
tokens lead to a state; one step keeps it, so a run that ends with a value has read the tokens of
that value. Conversely the tokens of a value lead the machine past it, whatever arrays and objects
are open, as long as there is room for its nesting. Together with the reading of tokens this gives
`parse?_eq_some_iff`: a value is read from exactly the texts that are documents of it.
-/

namespace StyleProps.Json

/-! ## Tokens with commas between them -/

/-- Parts with a separator between any two, of which the last part is set apart. -/
theorem intercalate_concat {α : Type} (separator : List α) (parts : List (List α))
    (last : List α) :
    separator.intercalate (parts ++ [last]) = parts.flatMap (· ++ separator) ++ last := by
  induction parts with
  | nil => simp
  | cons part parts ih =>
      cases parts with
      | nil => simp
      | cons next parts =>
          rw [List.cons_append, List.cons_append, List.intercalate_cons_cons, ← List.cons_append,
            ih, List.flatMap_cons, List.flatMap_cons, List.flatMap_cons]
          simp only [List.append_assoc]

/-- Parts with a separator behind each of them. -/
theorem intercalate_append_separator {α : Type} (separator : List α) {parts : List (List α)}
    (h : parts ≠ []) :
    separator.intercalate parts ++ separator = parts.flatMap (· ++ separator) := by
  obtain ⟨front, last, rfl⟩ := (List.eq_nil_or_concat parts).resolve_left h
  rw [List.concat_eq_append, intercalate_concat]
  simp

/-- The tokens of a member of an object. -/
def entryTokens (member : String × Json) : List Token :=
  .string member.1 :: .colon :: tokens member.2

/-- The items of an array are written with commas between them. -/
theorem itemTokens_eq_intercalate (items : List Json) :
    itemTokens items = [Token.comma].intercalate (items.map tokens) := by
  induction items with
  | nil => rfl
  | cons item items ih =>
      rw [itemTokens, List.map_cons]
      cases items with
      | nil => simp [moreItemTokens]
      | cons next items =>
          rw [moreItemTokens_of_ne_nil (List.cons_ne_nil _ _), ih, List.map_cons,
            List.intercalate_cons_cons]
          simp

/-- The members of an object are written with commas between them. -/
theorem memberTokens_eq_intercalate (members : List (String × Json)) :
    memberTokens members = [Token.comma].intercalate (members.map entryTokens) := by
  induction members with
  | nil => rfl
  | cons member members ih =>
      rw [memberTokens, List.map_cons]
      cases members with
      | nil => simp [moreMemberTokens, entryTokens]
      | cons next members =>
          rw [moreMemberTokens_of_ne_nil (List.cons_ne_nil _ _), ih, List.map_cons,
            List.intercalate_cons_cons]
          simp [entryTokens]

/-! ## Depths -/

/-- The depth of items is that of the deepest of them. -/
theorem depthItems_append (items others : List Json) :
    depthItems (items ++ others) = max (depthItems items) (depthItems others) := by
  induction items with
  | nil => simp [depthItems]
  | cons item items ih => rw [List.cons_append, depthItems, depthItems, ih, Nat.max_assoc]

/-- The depth of members is that of the deepest of them. -/
theorem depthMembers_append (members others : List (String × Json)) :
    depthMembers (members ++ others) = max (depthMembers members) (depthMembers others) := by
  induction members with
  | nil => simp [depthMembers]
  | cons member members ih => rw [List.cons_append, depthMembers, depthMembers, ih, Nat.max_assoc]

/-! ## What a run has read -/

variable {limit : Nat}

/-- The tokens that open some arrays and objects, innermost first, and fill them up to the value
that each of them waits for. What they hold is not nested too deeply. -/
inductive Opens (limit : Nat) : List Frame → List Token → Prop where
  | nil : Opens limit [] []
  | item {items : List Json} {stack : List Frame} {ts : List Token} (h : Opens limit stack ts)
      (hdepth : depthItems items + stack.length < limit) :
      Opens limit (.item items :: stack)
        (ts ++ .leftBracket :: (items.map tokens).flatMap (· ++ [.comma]))
  | member {members : List (String × Json)} {name : String} {stack : List Frame}
      {ts : List Token} (h : Opens limit stack ts)
      (hdepth : depthMembers members + stack.length < limit) :
      Opens limit (.member members name :: stack)
        (ts ++ .leftBrace :: ((members.map entryTokens).flatMap (· ++ [.comma]) ++
          [.string name, .colon]))

/-- The tokens that lead to a state. -/
inductive State.After (limit : Nat) : State → List Token → Prop where
  | needValue {stack : List Frame} {ts : List Token} (h : Opens limit stack ts) :
      After limit (.needValue stack) ts
  | firstItem {stack : List Frame} {ts : List Token} (h : Opens limit stack ts)
      (hdepth : stack.length < limit) : After limit (.firstItem stack) (ts ++ [.leftBracket])
  | afterItem {items : List Json} {stack : List Frame} {ts : List Token}
      (h : Opens limit stack ts) (hne : items ≠ [])
      (hdepth : depthItems items + stack.length < limit) :
      After limit (.afterItem items stack) (ts ++ .leftBracket :: itemTokens items)
  | firstName {stack : List Frame} {ts : List Token} (h : Opens limit stack ts)
      (hdepth : stack.length < limit) : After limit (.firstName stack) (ts ++ [.leftBrace])
  | needName {members : List (String × Json)} {stack : List Frame} {ts : List Token}
      (h : Opens limit stack ts) (hdepth : depthMembers members + stack.length < limit) :
      After limit (.needName members stack)
        (ts ++ .leftBrace :: (members.map entryTokens).flatMap (· ++ [.comma]))
  | needColon {members : List (String × Json)} {name : String} {stack : List Frame}
      {ts : List Token} (h : Opens limit stack ts)
      (hdepth : depthMembers members + stack.length < limit) :
      After limit (.needColon members name stack)
        (ts ++ .leftBrace :: ((members.map entryTokens).flatMap (· ++ [.comma]) ++
          [.string name]))
  | afterMember {members : List (String × Json)} {stack : List Frame} {ts : List Token}
      (h : Opens limit stack ts) (hne : members ≠ [])
      (hdepth : depthMembers members + stack.length < limit) :
      After limit (.afterMember members stack) (ts ++ .leftBrace :: memberTokens members)
  | done {value : Json} (hdepth : value.depth ≤ limit) : After limit (.done value) (tokens value)

/-- The same tokens, written in another way. -/
theorem State.After.of_eq {state : State} {ts us : List Token} (h : state.After limit ts)
    (heq : ts = us) : state.After limit us :=
  heq ▸ h

/-- A value takes up its tokens. -/
theorem Opens.supply {stack : List Frame} {ts : List Token} (h : Opens limit stack ts)
    {value : Json} (hdepth : value.depth + stack.length ≤ limit) :
    (State.supply value stack).After limit (ts ++ tokens value) := by
  cases h with
  | nil => exact .done hdepth
  | @item items stack ts h hitems =>
      have hroom : depthItems (items ++ [value]) + stack.length < limit := by
        rw [List.length_cons] at hdepth
        rw [depthItems_append, depthItems, depthItems]
        omega
      refine (State.After.afterItem h (by simp) hroom).of_eq ?_
      rw [itemTokens_eq_intercalate, List.map_append, List.map_singleton, intercalate_concat]
      simp
  | @member members name stack ts h hmembers =>
      have hroom : depthMembers (members ++ [(name, value)]) + stack.length < limit := by
        rw [List.length_cons] at hdepth
        rw [depthMembers_append, depthMembers, depthMembers]
        omega
      refine (State.After.afterMember h (by simp) hroom).of_eq ?_
      rw [memberTokens_eq_intercalate, List.map_append, List.map_singleton, intercalate_concat]
      simp [entryTokens]

/-- Open arrays and objects are no more than the limit. -/
theorem Opens.length_le {stack : List Frame} {ts : List Token} (h : Opens limit stack ts) :
    stack.length ≤ limit := by
  cases h with
  | nil => exact Nat.zero_le _
  | item _ hdepth | member _ hdepth =>
      rw [List.length_cons]
      omega

/-- The first token of a value is taken up. -/
theorem Opens.begin? {stack : List Frame} {ts : List Token} (h : Opens limit stack ts)
    {t : Token} {next : State} (hbegin : State.begin? limit stack t = some next) :
    next.After limit (ts ++ [t]) := by
  have hplain {value : Json} (hdepth : value.depth = 0) :
      (State.supply value stack).After limit (ts ++ tokens value) :=
    h.supply (by rw [hdepth, Nat.zero_add]; exact h.length_le)
  cases t with
  | null | bool _ | number _ | string _ =>
      obtain rfl := Option.some.inj hbegin
      exact hplain rfl
  | leftBracket =>
      obtain ⟨hroom, hnext⟩ := Option.ite_none_right_eq_some.mp hbegin
      obtain rfl := Option.some.inj hnext
      exact .firstItem h hroom
  | leftBrace =>
      obtain ⟨hroom, hnext⟩ := Option.ite_none_right_eq_some.mp hbegin
      obtain rfl := Option.some.inj hnext
      exact .firstName h hroom
  | rightBracket | rightBrace | comma | colon => simp [State.begin?] at hbegin

/-- In front of the first item, any token but the end of the array begins an item. -/
theorem step?_firstItem {t : Token} (ht : t ≠ .rightBracket) (stack : List Frame) :
    (State.firstItem stack).step? limit t = State.begin? limit (.item [] :: stack) t := by
  cases t <;> first | rfl | exact absurd rfl ht

/-- One step takes up one token. -/
theorem State.After.step? {state next : State} {ts : List Token} (h : state.After limit ts)
    {t : Token} (hstep : state.step? limit t = some next) : next.After limit (ts ++ [t]) := by
  cases h with
  | needValue h => exact h.begin? hstep
  | @firstItem stack ts h hdepth =>
      by_cases ht : t = .rightBracket
      · subst ht
        obtain rfl := Option.some.inj hstep
        have hempty : (Json.array []).depth + stack.length ≤ limit := by
          simp only [depth, depthItems]
          omega
        exact (h.supply hempty).of_eq (by simp [tokens, itemTokens])
      · rw [step?_firstItem ht] at hstep
        have hopen : Opens limit (.item [] :: stack) (ts ++ [.leftBracket]) :=
          .item h (by simpa [depthItems] using hdepth)
        exact hopen.begin? hstep
  | @afterItem items stack ts h hne hdepth =>
      cases t with
      | comma =>
          obtain rfl := Option.some.inj hstep
          -- With this comma, each of the items has one behind it, as an open array holds them.
          refine (State.After.needValue (.item h hdepth)).of_eq ?_
          rw [← intercalate_append_separator _ (by simpa using hne), itemTokens_eq_intercalate]
          simp
      | rightBracket =>
          obtain rfl := Option.some.inj hstep
          have hclosed : (Json.array items).depth + stack.length ≤ limit := by
            simp only [depth]
            omega
          exact (h.supply hclosed).of_eq (by simp [tokens])
      | _ => cases hstep
  | @firstName stack ts h hdepth =>
      cases t with
      | rightBrace =>
          obtain rfl := Option.some.inj hstep
          have hempty : (Json.object []).depth + stack.length ≤ limit := by
            simp only [depth, depthMembers]
            omega
          exact (h.supply hempty).of_eq (by simp [tokens, memberTokens])
      | string name =>
          obtain rfl := Option.some.inj hstep
          refine (State.After.needColon h (by simpa [depthMembers] using hdepth)).of_eq ?_
          simp
      | _ => cases hstep
  | needName h hdepth =>
      cases t with
      | string name =>
          obtain rfl := Option.some.inj hstep
          exact (State.After.needColon h hdepth).of_eq (by simp)
      | _ => cases hstep
  | needColon h hdepth =>
      cases t with
      | colon =>
          obtain rfl := Option.some.inj hstep
          exact (State.After.needValue (.member h hdepth)).of_eq (by simp)
      | _ => cases hstep
  | @afterMember members stack ts h hne hdepth =>
      cases t with
      | comma =>
          obtain rfl := Option.some.inj hstep
          refine (State.After.needName h hdepth).of_eq ?_
          rw [← intercalate_append_separator _ (by simpa using hne), memberTokens_eq_intercalate]
          simp
      | rightBrace =>
          obtain rfl := Option.some.inj hstep
          have hclosed : (Json.object members).depth + stack.length ≤ limit := by
            simp only [depth]
            omega
          exact (h.supply hclosed).of_eq (by simp [tokens])
      | _ => cases hstep
  | done _ => cases hstep

/-- A run that ends with a value has read the tokens of the value. -/
theorem State.After.run? {state : State} {ts us : List Token} (h : state.After limit ts)
    {value : Json} (hrun : state.run? limit us = some value) :
    ts ++ us = tokens value ∧ value.depth ≤ limit := by
  induction us generalizing state ts with
  | nil =>
      cases h with
      | done hdepth =>
          obtain rfl := Option.some.inj hrun
          exact ⟨List.append_nil _, hdepth⟩
      | _ => cases hrun
  | cons u us ih =>
      rw [State.run?] at hrun
      split at hrun
      · next hstep => simpa using ih (h.step? hstep) hrun
      · cases hrun

/-! ## The run over the tokens of a value -/

/-- A run takes one step and goes on. -/
theorem run?_cons {state next : State} {t : Token} (h : state.step? limit t = some next)
    (rest : List Token) : state.run? limit (t :: rest) = next.run? limit rest := by
  rw [State.run?, h]

/-- The first token of a value does not end an array. -/
theorem exists_tokens_cons (value : Json) :
    ∃ t ts, tokens value = t :: ts ∧ t ≠ .rightBracket := by
  cases value <;> simp [tokens]

/-- The first item of an array is read as any other value. -/
theorem run?_firstItem (item : Json) (stack : List Frame) (rest : List Token) :
    (State.firstItem stack).run? limit (tokens item ++ rest) =
      (State.needValue (.item [] :: stack)).run? limit (tokens item ++ rest) := by
  obtain ⟨t, ts, hcons, ht⟩ := exists_tokens_cons item
  rw [hcons, List.cons_append, State.run?, State.run?, step?_firstItem ht]
  rfl

-- The induction is on the value. What is open around it stays as it is and is counted only, so the
-- stack is arbitrary; further items and members are read with those that are already held.
mutual
/-- The tokens of a value lead past the value. -/
theorem run?_tokens (value : Json) (stack : List Frame) (rest : List Token)
    (hdepth : value.depth + stack.length ≤ limit) :
    (State.needValue stack).run? limit (tokens value ++ rest) =
      (State.supply value stack).run? limit rest := by
  cases value with
  | null | bool _ | number _ | string _ => exact run?_cons rfl rest
  | array items =>
      rw [depth] at hdepth
      have hopen : (State.needValue stack).step? limit .leftBracket = some (.firstItem stack) :=
        if_pos (by omega)
      rw [tokens, List.cons_append, List.append_assoc, List.singleton_append, run?_cons hopen]
      cases items with
      | nil => exact run?_cons rfl rest
      | cons item items =>
          rw [depthItems] at hdepth
          rw [itemTokens, List.append_assoc, run?_firstItem,
            run?_tokens item _ _ (by rw [List.length_cons]; omega)]
          exact run?_moreItemTokens items [item] stack rest (by omega)
  | object members =>
      rw [depth] at hdepth
      have hopen : (State.needValue stack).step? limit .leftBrace = some (.firstName stack) :=
        if_pos (by omega)
      rw [tokens, List.cons_append, List.append_assoc, List.singleton_append, run?_cons hopen]
      cases members with
      | nil => exact run?_cons rfl rest
      | cons member members =>
          obtain ⟨name, value⟩ := member
          rw [depthMembers] at hdepth
          rw [memberTokens, List.cons_append, List.cons_append, List.append_assoc,
            run?_cons rfl, run?_cons rfl,
            run?_tokens value _ _ (by rw [List.length_cons]; omega)]
          exact run?_moreMemberTokens members [(name, value)] stack rest (by omega)

/-- The tokens of further items, and the end of the array, lead past the array. -/
theorem run?_moreItemTokens (items held : List Json) (stack : List Frame) (rest : List Token)
    (hdepth : depthItems items + stack.length < limit) :
    (State.afterItem held stack).run? limit (moreItemTokens items ++ .rightBracket :: rest) =
      (State.supply (.array (held ++ items)) stack).run? limit rest := by
  cases items with
  | nil => rw [List.append_nil]; exact run?_cons rfl rest
  | cons item items =>
      rw [depthItems] at hdepth
      rw [moreItemTokens, List.cons_append, List.append_assoc, run?_cons rfl,
        run?_tokens item _ _ (by rw [List.length_cons]; omega), List.append_cons held]
      exact run?_moreItemTokens items (held ++ [item]) stack rest (by omega)

/-- The tokens of further members, and the end of the object, lead past the object. -/
theorem run?_moreMemberTokens (members held : List (String × Json)) (stack : List Frame)
    (rest : List Token) (hdepth : depthMembers members + stack.length < limit) :
    (State.afterMember held stack).run? limit (moreMemberTokens members ++ .rightBrace :: rest) =
      (State.supply (.object (held ++ members)) stack).run? limit rest := by
  cases members with
  | nil => rw [List.append_nil]; exact run?_cons rfl rest
  | cons member members =>
      obtain ⟨name, value⟩ := member
      rw [depthMembers] at hdepth
      rw [moreMemberTokens, List.cons_append, List.cons_append, List.cons_append,
        List.append_assoc, run?_cons rfl, run?_cons rfl, run?_cons rfl,
        run?_tokens value _ _ (by rw [List.length_cons]; omega), List.append_cons held]
      exact run?_moreMemberTokens members (held ++ [(name, value)]) stack rest (by omega)
end

/-! ## Texts -/

/-- A value is read from exactly the texts that are documents of it. -/
theorem parse?_eq_some_iff {text : String} {value : Json} :
    parse? text = some value ↔ IsDocument text value := by
  unfold parse? parseWithin?
  rw [isDocument_iff]
  constructor
  · intro h
    split at h
    · next ts hlex =>
        obtain ⟨htokens, hdepth⟩ := (State.After.needValue .nil).run? h
        obtain rfl : ts = tokens value := htokens
        exact ⟨spells_of_lex? hlex, hdepth⟩
    · cases h
  · rintro ⟨hspells, hdepth⟩
    rw [lex?_eq_tokens_iff.mpr hspells]
    simpa [State.supply, State.run?] using run?_tokens value [] [] hdepth

end StyleProps.Json
