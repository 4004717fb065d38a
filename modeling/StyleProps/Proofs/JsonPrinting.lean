import StyleProps.Proofs.JsonDocuments
import StyleProps.Json.Printer

/-!
# Reading back written JSON

Both forms in which a value is written are documents of it, if the text of each of its numbers reads
back (`Number.Rereads`): the compact form spells the tokens of the value without blanks, and the
indented form spells them with line breaks and indentation between them. A floating-point number is
never written as an integer, so whatever its text reads back as is a floating-point number.
-/

namespace StyleProps.Json

/-- Whether the text of a number is read as the number. -/
def Number.Rereads (n : Number) : Prop :=
  Json.parse? (String.ofList n.chars) = some (.number n)

/-- The text of a number that reads back spells it. -/
theorem Number.Rereads.spells {n : Number} (h : n.Rereads) : Spells n.chars [.number n] := by
  have hspells := (isDocument_iff.mp (parse?_eq_some_iff.mp h)).1
  rwa [String.toList_ofList] at hspells

/-! ## The compact form -/

/-- Every token but a number is written as a text that spells it. -/
theorem spells_chars {t : Token} (h : ∀ n, t = .number n → n.Rereads) : Spells t.chars [t] := by
  cases t with
  | number n => exact (h n rfl).spells
  | string text => exact (lexeme_quote text).spells
  | bool b => cases b <;> exact Lexeme.spells (by constructor)
  | _ => exact Lexeme.spells (by constructor)

/-- The compact form is a document of the value. -/
theorem isDocument_compact {value : Json}
    (hnumbers : ∀ n, .number n ∈ tokens value → n.Rereads) (hdepth : value.depth ≤ depthLimit) :
    IsDocument value.compact value := by
  have hspells (ts : List Token) (hts : ∀ n, .number n ∈ ts → n.Rereads) :
      Spells (ts.flatMap Token.chars) ts := by
    induction ts with
    | nil => exact .nil
    | cons t ts ih =>
        have hfirst : Spells t.chars [t] := spells_chars fun n hn => hts n (by simp [hn])
        exact hfirst.append (ih fun n hn => hts n (List.mem_cons_of_mem t hn))
  exact isDocument_iff.mpr ⟨by simpa [compact] using hspells (tokens value) hnumbers, hdepth⟩

/-! ## The indented form -/

/-- The start of a line spells nothing. -/
theorem Spells.newline {chars : List Char} {ts : List Token} (h : Spells chars ts) (level : Nat) :
    Spells (newline level ++ chars) ts := by
  refine .blanks (fun c hc => ?_) h
  rcases List.mem_cons.mp hc with rfl | hspace
  · decide
  · obtain rfl := (List.mem_replicate.mp hspace).2
    decide

/-- A comma and a new line before a text spell a comma. -/
theorem Spells.commaNewline {chars : List Char} {ts : List Token} (h : Spells chars ts)
    (level : Nat) : Spells (',' :: (Json.newline level ++ chars)) (.comma :: ts) :=
  .token .comma (h.newline level)

/-- A name and a colon before the text of a value spell a member. -/
theorem Spells.named {chars : List Char} {ts : List Token} (h : Spells chars ts) (name : String) :
    Spells (quote name.toList ++ ':' :: ' ' :: chars) (.string name :: .colon :: ts) :=
  .token (lexeme_quote name) (.token .colon (.blank (by decide) h))

mutual
/-- The indented form spells the tokens of the value. -/
theorem spells_prettyChars (level : Nat) (value : Json)
    (h : ∀ n, .number n ∈ tokens value → n.Rereads) :
    Spells (prettyChars level value) (tokens value) := by
  cases value with
  | null => exact Lexeme.nullWord.spells
  | bool b => cases b <;> exact Lexeme.spells (by constructor)
  | number n => exact (h n (by simp [tokens])).spells
  | string text => exact (lexeme_quote text).spells
  | array items =>
      cases items with
      | nil => exact .token .leftBracket (.token .rightBracket .nil)
      | cons item items =>
          have hitem := spells_prettyChars (level + 1) item fun n hn =>
            h n (by simp [tokens, itemTokens, hn])
          have hitems := spells_prettyItems (level + 1) items fun n hn =>
            h n (by simp [tokens, itemTokens, hn])
          -- A text is spelled from its end: each part is put in front of what follows it.
          have hclose : Spells (newline level ++ [']']) [.rightBracket] :=
            Lexeme.rightBracket.spells.newline level
          have hopen : Spells ('[' :: _) (.leftBracket :: _) :=
            .token .leftBracket ((hitem.append (hitems.append hclose)).newline (level + 1))
          simpa [prettyChars, tokens, itemTokens] using hopen
  | object members =>
      cases members with
      | nil => exact .token .leftBrace (.token .rightBrace .nil)
      | cons member members =>
          obtain ⟨name, value⟩ := member
          have hvalue := spells_prettyChars (level + 1) value fun n hn =>
            h n (by simp [tokens, memberTokens, hn])
          have hmembers := spells_prettyMembers (level + 1) members fun n hn =>
            h n (by simp [tokens, memberTokens, hn])
          have hclose : Spells (newline level ++ ['\x7d']) [.rightBrace] :=
            Lexeme.rightBrace.spells.newline level
          have hopen : Spells ('\x7b' :: _) (.leftBrace :: _) :=
            .token .leftBrace
              (((hvalue.named name).append (hmembers.append hclose)).newline (level + 1))
          simpa [prettyChars, tokens, memberTokens] using hopen

/-- The indented items that follow another one spell their tokens. -/
theorem spells_prettyItems (level : Nat) (items : List Json)
    (h : ∀ n, .number n ∈ moreItemTokens items → n.Rereads) :
    Spells (prettyItems level items) (moreItemTokens items) := by
  cases items with
  | nil => exact .nil
  | cons item items =>
      have hitem := spells_prettyChars level item fun n hn =>
        h n (by simp [moreItemTokens, hn])
      have hitems := spells_prettyItems level items fun n hn =>
        h n (by simp [moreItemTokens, hn])
      simpa [prettyItems, moreItemTokens] using (hitem.append hitems).commaNewline level

/-- The indented members that follow another one spell their tokens. -/
theorem spells_prettyMembers (level : Nat) (members : List (String × Json))
    (h : ∀ n, .number n ∈ moreMemberTokens members → n.Rereads) :
    Spells (prettyMembers level members) (moreMemberTokens members) := by
  cases members with
  | nil => exact .nil
  | cons member members =>
      obtain ⟨name, value⟩ := member
      have hvalue := spells_prettyChars level value fun n hn =>
        h n (by simp [moreMemberTokens, hn])
      have hmembers := spells_prettyMembers level members fun n hn =>
        h n (by simp [moreMemberTokens, hn])
      simpa [prettyMembers, moreMemberTokens] using
        ((hvalue.named name).append hmembers).commaNewline level
end

/-- The indented form is a document of the value. -/
theorem isDocument_pretty {value : Json}
    (hnumbers : ∀ n, .number n ∈ tokens value → n.Rereads) (hdepth : value.depth ≤ depthLimit) :
    IsDocument value.pretty value :=
  isDocument_iff.mpr ⟨by simpa [pretty] using spells_prettyChars 0 value hnumbers, hdepth⟩

/-! ## Floating-point numbers -/

/-- Whether a character may stand in the text of an integer: a digit, a minus sign or a blank. -/
def isIntegral (c : Char) : Bool :=
  Decimal.isDigit c || c = '-' || isBlank c

/-- A numeral that stands for an integer has neither a fraction nor an exponent. -/
theorem fraction_eq_none_and_exponent_eq_none {numeral : Numeral} {k : Int}
    (h : numeral.number? = some (.integer k)) :
    numeral.fraction = none ∧ numeral.exponent = none := by
  unfold Numeral.number? at h
  dsimp only at h
  split at h
  · next hfraction hexponent => exact ⟨hfraction, hexponent⟩
  · simp at h

/-- The text of an integer consists of digits and a sign. -/
theorem isIntegral_of_lexeme {k : Int} {lexeme : List Char}
    (h : Lexeme (.number (.integer k)) lexeme) : ∀ c ∈ lexeme, isIntegral c = true := by
  cases h with
  | @number numeral _ text htext hrange =>
      obtain ⟨hfraction, hexponent⟩ := fraction_eq_none_and_exponent_eq_none hrange
      obtain ⟨hwhole, hfractionText, hexponentText⟩ := htext
      rw [hfraction] at hfractionText
      rw [hexponent] at hexponentText
      cases hfractionText
      cases hexponentText
      intro c hc
      rw [List.append_nil, List.append_nil] at hc
      rcases List.mem_append.mp hc with hsign | hdigit
      · unfold Numeral.sign at hsign
        split at hsign
        · obtain rfl := List.mem_singleton.mp hsign
          decide
        · simp at hsign
      · simp [isIntegral, hwhole.isDigits.2 c hdigit]

/-- A text that spells an integer and nothing else has no other characters. -/
theorem isIntegral_of_spells {chars : List Char} {ts : List Token} (h : Spells chars ts)
    (hts : ∀ t ∈ ts, ∃ k, t = .number (.integer k)) : ∀ c ∈ chars, isIntegral c = true := by
  induction h with
  | nil => simp
  | blank hblank _ ih =>
      rw [List.forall_mem_cons]
      exact ⟨by simp [isIntegral, hblank], ih hts⟩
  | token hlexeme _ ih =>
      rw [List.forall_mem_cons] at hts
      obtain ⟨⟨k, rfl⟩, hrest⟩ := hts
      intro c hc
      rcases List.mem_append.mp hc with hfirst | hrest'
      · exact isIntegral_of_lexeme hlexeme c hfirst
      · exact ih hrest c hrest'

/-- Laid-out digits hold a point or the letter of an exponent. -/
theorem exists_not_isIntegral_layout (chars : List Char) (point : Int) (positional : Bool) :
    ∃ c ∈ (if positional then Decimal.withPoint true chars point
      else Decimal.withExponent chars (point - 1)), isIntegral c = false := by
  cases positional with
  | true =>
      refine ⟨'.', ?_, by decide⟩
      rw [if_pos rfl, Decimal.withPoint]
      split
      · simp
      · dsimp only
        split <;> simp
  | false => exact ⟨'e', by simp [Decimal.withExponent], by decide⟩

/-- The text of a floating-point number holds a character that no integer has. -/
theorem exists_not_isIntegral (x : Float) :
    ∃ c ∈ (Number.float x).chars, isIntegral c = false := by
  have hsigned {chars : List Char} (negative : Bool) (h : ∃ c ∈ chars, isIntegral c = false) :
      ∃ c ∈ (if negative then '-' :: chars else chars), isIntegral c = false := by
    obtain ⟨c, hc, hnot⟩ := h
    exact ⟨c, by split <;> simp [hc], hnot⟩
  rw [Number.chars]
  split
  · unfold Decimal.Layout.write
    dsimp only
    -- What is not finite is written as a word, and what is finite as laid-out digits.
    split
    · exact ⟨'n', by decide, by decide⟩
    · exact hsigned _ ⟨'n', by decide, by decide⟩
    · exact hsigned _ (exists_not_isIntegral_layout _ _ _)
  · exact ⟨'n', by decide, by decide⟩

/-- If the text of a floating-point number is read as a number at all, then as one that is no
integer. -/
theorem ne_integer_of_parse? {x : Float} {n : Number}
    (h : Json.parse? (String.ofList (Number.float x).chars) = some (.number n)) (k : Int) :
    n ≠ .integer k := by
  rintro rfl
  have hspells := (isDocument_iff.mp (parse?_eq_some_iff.mp h)).1
  rw [String.toList_ofList] at hspells
  obtain ⟨c, hc, hnot⟩ := exists_not_isIntegral x
  have hintegral := isIntegral_of_spells hspells (by simp [tokens]) c hc
  rw [hintegral] at hnot
  cases hnot

end StyleProps.Json
