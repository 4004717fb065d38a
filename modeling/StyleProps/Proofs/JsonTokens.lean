import Mathlib.Data.List.Chain
import StyleProps.Proofs.JsonStrings
import StyleProps.Proofs.JsonNumbers

/-!
# Reading JSON tokens

The tokens that are read from a text are spelled by it (`spells_of_lex?`), and tokens that a text
spells are read if no two numbers follow one another: without a blank between them, such numbers may
read as one. The tokens of a value hold no two such numbers, so they are read from exactly the texts
that spell them (`lex?_eq_tokens_iff`).
-/

namespace StyleProps.Json

/-! ## One token -/

/-- A token that is read is spelled by what stands before the rest. -/
theorem lexeme_of_token? {chars rest : List Char} {t : Token}
    (h : token? chars = some (t, rest)) : ∃ lexeme, chars = lexeme ++ rest ∧ Lexeme t lexeme := by
  unfold token? at h
  split at h
  case h_7 =>
    simp only [Option.map_eq_some_iff, Prod.mk.injEq, Prod.exists] at h
    obtain ⟨body, after, hread, rfl, rfl⟩ := h
    obtain ⟨text, rfl, hbody⟩ := bodyText_of_stringBody? hread
    exact ⟨_, by simp, .string hbody⟩
  case h_11 => exact lexeme_of_numberToken? h
  all_goals
    obtain ⟨rfl, rfl⟩ := Prod.mk.inj (Option.some.inj h)
    exact ⟨_, rfl, by constructor⟩

/-- A text that begins with a minus sign or a digit is read as a number. -/
theorem token?_eq_numberToken? {c : Char} (h : c = '-' ∨ Decimal.isDigit c = true)
    (rest : List Char) : token? (c :: rest) = numberToken? (c :: rest) := by
  have hne (d : Char) (hminus : d ≠ '-') (hdigit : Decimal.isDigit d = false) : c ≠ d := by
    rcases h with rfl | hc
    · exact hminus.symm
    · exact ne_of_isDigit hc hdigit
  unfold token?
  split
  case h_11 => rfl
  all_goals
    next heq => exact absurd (List.cons.inj heq).1 (hne _ (by decide) (by decide))

/-- The text of a number begins with a minus sign or a digit. -/
theorem NumeralText.exists_cons_sign {numeral : Numeral} {text : List Char}
    (h : NumeralText numeral text) :
    ∃ c rest, numeral.sign ++ text = c :: rest ∧ (c = '-' ∨ Decimal.isDigit c = true) := by
  unfold Numeral.sign
  split
  · exact ⟨'-', text, rfl, .inl rfl⟩
  · obtain ⟨c, rest, rfl, hc⟩ := h.exists_cons
    exact ⟨c, rest, rfl, .inr hc⟩

/-- Whether a token is a number. -/
def Token.IsNumber : Token → Prop
  | .number _ => True
  | _ => False

/-- A token is read from a text that spells it; a number must end where the text ends. -/
theorem Lexeme.token?_append {t : Token} {lexeme rest : List Char} (h : Lexeme t lexeme)
    (hrest : t.IsNumber → EndsNumeral rest) : token? (lexeme ++ rest) = some (t, rest) := by
  cases h with
  | string hbody =>
      have hread := hbody.stringBody?_append rest
      simp [token?, hread]
  | number htext hrange =>
      have hread := htext.numberToken?_append hrange (hrest trivial)
      obtain ⟨c, tail, hcons, hc⟩ := htext.exists_cons_sign
      rw [hcons, List.cons_append] at hread ⊢
      rw [token?_eq_numberToken? hc, hread]
  | _ => rfl

/-- The text of a token begins with no blank, and with nothing that continues a number unless it is
a number itself. -/
theorem Lexeme.exists_cons {t : Token} {lexeme : List Char} (h : Lexeme t lexeme) :
    ∃ c rest, lexeme = c :: rest ∧ isBlank c = false ∧
      (¬ t.IsNumber → Decimal.isDigit c = false ∧ c ∉ ['.', 'e', 'E']) := by
  cases h with
  | string _ => exact ⟨'"', _, rfl, by decide, fun _ => by decide⟩
  | number htext _ =>
      obtain ⟨c, tail, hcons, hc⟩ := htext.exists_cons_sign
      refine ⟨c, tail, hcons, ?_, fun hnot => absurd trivial hnot⟩
      rcases hc with rfl | hc
      · decide
      · have hne (d : Char) (hd : Decimal.isDigit d = false) : c ≠ d := ne_of_isDigit hc hd
        simp only [isBlank, Bool.or_eq_false_iff, decide_eq_false_iff_not]
        exact ⟨⟨⟨hne _ (by decide), hne _ (by decide)⟩, hne _ (by decide)⟩, hne _ (by decide)⟩
  | _ => exact ⟨_, _, rfl, by decide, fun _ => by decide⟩

/-! ## Sequences of tokens -/

/-- A blank is skipped. -/
theorem lex?_blank {c : Char} (h : isBlank c = true) (rest : List Char) :
    lex? (c :: rest) = lex? rest := by
  rw [lex?, if_pos h]

/-- A token is read, and the text is read on behind it. -/
theorem lex?_token {chars rest : List Char} {t : Token} {c : Char} (hblank : isBlank c = false)
    (h : token? (c :: chars) = some (t, rest)) :
    lex? (c :: chars) = (lex? rest).map (t :: ·) := by
  rw [lex?, if_neg (by simp [hblank])]
  split
  · next hnone => simp [h] at hnone
  · next hsome =>
      obtain ⟨rfl, rfl⟩ := Prod.mk.inj (Option.some.inj (h.symm.trans hsome))
      rfl

/-- The tokens that are read are spelled by the text. -/
theorem spells_of_lex? {chars : List Char} {ts : List Token} (h : lex? chars = some ts) :
    Spells chars ts := by
  fun_induction lex? chars generalizing ts with
  | case1 =>
      obtain rfl := Option.some.inj h
      exact .nil
  | case2 c rest hblank ih => exact .blank hblank (ih h)
  | case3 => simp at h
  | case4 c rest hblank t after hread ih =>
      obtain ⟨us, hus, rfl⟩ := Option.map_eq_some_iff.mp h
      obtain ⟨lexeme, hcons, hlexeme⟩ := lexeme_of_token? hread
      rw [hcons]
      exact .token hlexeme (ih hus)

/-- Whether no two numbers follow one another. -/
def Apart (ts : List Token) : Prop :=
  ts.IsChain fun t u => t.IsNumber → ¬ u.IsNumber

/-- A text that spells tokens of which the first is no number does not continue a number. -/
theorem Spells.endsNumeral {chars : List Char} {ts : List Token} (h : Spells chars ts)
    (hfirst : ∀ t ∈ ts.head?, ¬ t.IsNumber) : EndsNumeral chars := by
  cases h with
  | nil => simp [EndsNumeral]
  | blank hblank _ =>
      intro c hc
      obtain rfl := Option.some.inj hc
      simp only [isBlank, Bool.or_eq_true, decide_eq_true_eq] at hblank
      rcases hblank with ((rfl | rfl) | rfl) | rfl <;> decide
  | token hlexeme _ =>
      obtain ⟨c, rest, rfl, _, hends⟩ := hlexeme.exists_cons
      intro d hd
      obtain rfl := Option.some.inj hd
      exact hends (hfirst _ rfl)

/-- The tokens that a text spells are read, if no two numbers follow one another. -/
theorem Spells.lex? {chars : List Char} {ts : List Token} (h : Spells chars ts)
    (hapart : Apart ts) : Json.lex? chars = some ts := by
  induction h with
  | nil => rw [Json.lex?]
  | blank hblank _ ih => rw [lex?_blank hblank, ih hapart]
  | token hlexeme hrest ih =>
      obtain ⟨hfirst, hapart⟩ := List.isChain_cons.mp hapart
      -- A number is read up to where it ends only because no number follows it.
      have hread := hlexeme.token?_append fun hnumber =>
        hrest.endsNumeral fun t ht => hfirst t ht hnumber
      obtain ⟨c, tail, rfl, hblank, _⟩ := hlexeme.exists_cons
      rw [List.cons_append] at hread ⊢
      rw [lex?_token hblank hread, ih hapart, Option.map_some]

/-! ## The tokens of a value -/

/-- Tokens stay apart behind one that is no number. -/
theorem apart_cons {t : Token} {ts : List Token} (ht : ¬ t.IsNumber) (h : Apart ts) :
    Apart (t :: ts) :=
  List.isChain_cons.mpr ⟨fun _ _ hnumber => absurd hnumber ht, h⟩

/-- A token stays apart from tokens of which the first is no number. -/
theorem apart_cons_of_head {t : Token} {ts : List Token} (hfirst : ∀ u ∈ ts.head?, ¬ u.IsNumber)
    (h : Apart ts) : Apart (t :: ts) :=
  List.isChain_cons.mpr ⟨fun u hu _ => hfirst u hu, h⟩

/-- Items that follow another one begin with no number. -/
theorem head_moreItemTokens {items : List Json} {rest : List Token}
    (hrest : ∀ t ∈ rest.head?, ¬ t.IsNumber) :
    ∀ t ∈ (moreItemTokens items ++ rest).head?, ¬ t.IsNumber := by
  cases items with
  | nil => exact hrest
  | cons item items => simp [moreItemTokens, Token.IsNumber]

/-- Members that follow another one begin with no number. -/
theorem head_moreMemberTokens {members : List (String × Json)} {rest : List Token}
    (hrest : ∀ t ∈ rest.head?, ¬ t.IsNumber) :
    ∀ t ∈ (moreMemberTokens members ++ rest).head?, ¬ t.IsNumber := by
  cases members with
  | nil => exact hrest
  | cons member members => simp [moreMemberTokens, Token.IsNumber]

mutual
/-- The tokens of a value stay apart in front of tokens of which the first is no number. -/
theorem apart_tokens_append (value : Json) {rest : List Token}
    (hfirst : ∀ t ∈ rest.head?, ¬ t.IsNumber) (h : Apart rest) : Apart (tokens value ++ rest) := by
  have hclose {t : Token} (ht : ¬ t.IsNumber) : ∀ u ∈ (t :: rest).head?, ¬ u.IsNumber := by
    simpa using ht
  cases value with
  | null | bool _ | number _ | string _ => exact apart_cons_of_head hfirst h
  | array items =>
      rw [tokens, List.cons_append, List.append_assoc, List.singleton_append]
      refine apart_cons id ?_
      cases items with
      | nil => exact apart_cons id h
      | cons item items =>
          rw [itemTokens, List.append_assoc]
          exact apart_tokens_append item (head_moreItemTokens (hclose id))
            (apart_moreItemTokens_append items (hclose id) (apart_cons id h))
  | object members =>
      rw [tokens, List.cons_append, List.append_assoc, List.singleton_append]
      refine apart_cons id ?_
      cases members with
      | nil => exact apart_cons id h
      | cons member members =>
          obtain ⟨name, value⟩ := member
          rw [memberTokens, List.cons_append, List.cons_append, List.append_assoc]
          refine apart_cons id (apart_cons id ?_)
          exact apart_tokens_append value (head_moreMemberTokens (hclose id))
            (apart_moreMemberTokens_append members (hclose id) (apart_cons id h))

/-- The tokens of items that follow another one stay apart in front of such tokens. -/
theorem apart_moreItemTokens_append (items : List Json) {rest : List Token}
    (hfirst : ∀ t ∈ rest.head?, ¬ t.IsNumber) (h : Apart rest) :
    Apart (moreItemTokens items ++ rest) := by
  cases items with
  | nil => exact h
  | cons item items =>
      rw [moreItemTokens, List.cons_append, List.append_assoc]
      refine apart_cons id ?_
      exact apart_tokens_append item (head_moreItemTokens hfirst)
        (apart_moreItemTokens_append items hfirst h)

/-- The tokens of members that follow another one stay apart in front of such tokens. -/
theorem apart_moreMemberTokens_append (members : List (String × Json)) {rest : List Token}
    (hfirst : ∀ t ∈ rest.head?, ¬ t.IsNumber) (h : Apart rest) :
    Apart (moreMemberTokens members ++ rest) := by
  cases members with
  | nil => exact h
  | cons member members =>
      obtain ⟨name, value⟩ := member
      rw [moreMemberTokens, List.cons_append, List.cons_append, List.cons_append,
        List.append_assoc]
      refine apart_cons id (apart_cons id (apart_cons id ?_))
      exact apart_tokens_append value (head_moreMemberTokens hfirst)
        (apart_moreMemberTokens_append members hfirst h)
end

/-- The tokens of a value are read from a text exactly when the text spells them. -/
theorem lex?_eq_tokens_iff {chars : List Char} {value : Json} :
    lex? chars = some (tokens value) ↔ Spells chars (tokens value) := by
  refine ⟨spells_of_lex?, fun h => h.lex? ?_⟩
  have hnone : ∀ t ∈ ([] : List Token).head?, ¬ t.IsNumber := by simp
  have hapart := apart_tokens_append value hnone List.isChain_nil
  rwa [List.append_nil] at hapart

end StyleProps.Json
