import StyleProps.Proofs.JsonGrammar

/-!
# Reading and writing JSON strings

What the reader of strings accepts is what the grammar spells: each part that is read comes with
the text that spells it, and every such text is read back whatever follows it. A character is
written as one of the texts that spell it, so a quoted string reads back.
-/

namespace StyleProps.Json

/-! ## Escapes -/

/-- A unit that is read is spelled by what stands before the rest. -/
theorem unitText_of_unit? {chars rest : List Char} {n : Nat} (h : unit? chars = some (n, rest)) :
    ∃ text, chars = text ++ rest ∧ UnitText n text := by
  unfold unit? at h
  split at h
  · next a b c d after =>
      simp only [Option.bind_eq_bind, Option.bind_eq_some_iff, Option.pure_def, Option.some.injEq,
        Prod.mk.injEq] at h
      obtain ⟨i, ha, j, hb, k, hc, l, hd, rfl, rfl⟩ := h
      exact ⟨[a, b, c, d], rfl, .intro ha hb hc hd⟩
  · simp at h

/-- A unit is read from a text that spells it. -/
theorem UnitText.unit?_append {n : Nat} {text : List Char} (h : UnitText n text)
    (rest : List Char) : unit? (text ++ rest) = some (n, rest) := by
  cases h with
  | intro ha hb hc hd => simp [unit?, ha, hb, hc, hd]

/-- The reader's test for the first half of a surrogate pair. -/
theorem isHighSurrogate_iff {unit : Nat} :
    IsHighSurrogate unit ↔ (0xD800 ≤ unit && unit ≤ 0xDBFF) = true := by
  simp [IsHighSurrogate]

/-- The reader's test for the second half of a surrogate pair. -/
theorem isLowSurrogate_iff {unit : Nat} :
    IsLowSurrogate unit ↔ (0xDC00 ≤ unit && unit ≤ 0xDFFF) = true := by
  simp [IsLowSurrogate]

/-- A unit that is neither half of a surrogate pair is read as its own character. -/
theorem unicodeEscape?_of_unit? {chars rest : List Char} {n : Nat}
    (hunit : unit? chars = some (n, rest)) (hhigh : ¬ IsHighSurrogate n)
    (hlow : ¬ IsLowSurrogate n) : unicodeEscape? chars = some (Char.ofNat n, rest) := by
  rw [isHighSurrogate_iff] at hhigh
  rw [isLowSurrogate_iff] at hlow
  simp only [unicodeEscape?, hunit, Option.bind_eq_bind, Option.bind_some, hhigh, hlow]
  rfl

/-- Two units that are the halves of a surrogate pair are read as one character. -/
theorem unicodeEscape?_of_pair {chars second rest : List Char} {high low : Nat}
    (hfirst : unit? chars = some (high, '\\' :: 'u' :: second))
    (hsecond : unit? second = some (low, rest)) (hhigh : IsHighSurrogate high)
    (hlow : IsLowSurrogate low) :
    unicodeEscape? chars =
      some (Char.ofNat (0x10000 + (high - 0xD800) * 0x400 + (low - 0xDC00)), rest) := by
  have hnot : ¬ IsLowSurrogate high := fun h => by
    have := hhigh.2
    have := h.1
    omega
  rw [isLowSurrogate_iff] at hnot hlow
  rw [isHighSurrogate_iff] at hhigh
  simp only [unicodeEscape?, hfirst, hsecond, Option.bind_eq_bind, Option.bind_some, hnot, hhigh,
    hlow]
  rfl

/-- A character that is read after the letter `u` is spelled by what stands before the rest. -/
theorem charText_of_unicodeEscape? {chars rest : List Char} {c : Char}
    (h : unicodeEscape? chars = some (c, rest)) :
    ∃ text, '\\' :: 'u' :: chars = text ++ rest ∧ CharText c text := by
  simp only [unicodeEscape?, Option.bind_eq_bind, Option.bind_eq_some_iff, Prod.exists] at h
  obtain ⟨high, after, hunit, h⟩ := h
  obtain ⟨first, rfl, hfirst⟩ := unitText_of_unit? hunit
  split at h
  · simp at h
  · next hnotLow =>
      split at h
      · next hhigh =>
          split at h
          · simp only [Option.bind_eq_some_iff, Prod.exists] at h
            obtain ⟨low, after, hunit, h⟩ := h
            obtain ⟨second, rfl, hsecond⟩ := unitText_of_unit? hunit
            split at h
            · next hlow =>
                obtain ⟨rfl, rfl⟩ := Prod.mk.inj (Option.some.inj h)
                exact ⟨_, by simp, .pair hfirst hsecond (isHighSurrogate_iff.mpr hhigh)
                  (isLowSurrogate_iff.mpr hlow)⟩
            · simp at h
          · simp at h
      · next hnotHigh =>
          obtain ⟨rfl, rfl⟩ := Prod.mk.inj (Option.some.inj h)
          exact ⟨_, rfl, .unit hfirst (mt isHighSurrogate_iff.mp hnotHigh)
            (mt isLowSurrogate_iff.mp hnotLow)⟩

/-- A character that is read after a backslash is spelled by what stands before the rest. -/
theorem charText_of_escaped? {chars rest : List Char} {c : Char}
    (h : escaped? chars = some (c, rest)) :
    ∃ text, '\\' :: chars = text ++ rest ∧ CharText c text := by
  unfold escaped? at h
  split at h
  case h_9 => exact charText_of_unicodeEscape? h
  case h_10 => simp at h
  all_goals
    obtain ⟨rfl, rfl⟩ := Prod.mk.inj (Option.some.inj h)
    exact ⟨_, rfl, .short (by decide)⟩

/-- A letter of the short escapes is read as its character. -/
theorem escaped?_of_mem {letter c : Char} (h : (letter, c) ∈ shortEscapes) (rest : List Char) :
    escaped? (letter :: rest) = some (c, rest) := by
  simp only [shortEscapes, List.mem_cons, Prod.mk.injEq, List.not_mem_nil, or_false] at h
  rcases h with ⟨rfl, rfl⟩ | ⟨rfl, rfl⟩ | ⟨rfl, rfl⟩ | ⟨rfl, rfl⟩ | ⟨rfl, rfl⟩ | ⟨rfl, rfl⟩ |
    ⟨rfl, rfl⟩ | ⟨rfl, rfl⟩ <;> rfl

/-! ## Strings -/

/-- The end of a string. -/
theorem stringBody?_quote (rest : List Char) : stringBody? ('"' :: rest) = some ([], rest) := by
  simp [stringBody?]

/-- An escape in a string. -/
theorem stringBody?_backslash {chars rest : List Char} {c : Char}
    (h : escaped? chars = some (c, rest)) :
    stringBody? ('\\' :: chars) =
      (stringBody? rest).map fun (body, after) => (c :: body, after) := by
  rw [stringBody?, if_neg (by decide), if_pos rfl]
  split
  · next hnone => simp [h] at hnone
  · next hsome =>
      obtain ⟨rfl, rfl⟩ := Prod.mk.inj (Option.some.inj (h.symm.trans hsome))
      rfl

/-- A character that is spelled in a string is read, and the string is read on behind it. -/
theorem CharText.stringBody?_append {c : Char} {text : List Char} (h : CharText c text)
    (rest : List Char) :
    stringBody? (text ++ rest) =
      (stringBody? rest).map fun (body, after) => (c :: body, after) := by
  cases h with
  | plain hquote hbackslash hcontrol =>
      rw [List.singleton_append, stringBody?, if_neg hquote, if_neg hbackslash,
        if_neg (Nat.not_lt.mpr hcontrol)]
  | short hmem => exact stringBody?_backslash (escaped?_of_mem hmem rest)
  | @unit n digits hunit hhigh hlow =>
      have hescape : escaped? ('u' :: (digits ++ rest)) = some (Char.ofNat n, rest) :=
        unicodeEscape?_of_unit? (hunit.unit?_append rest) hhigh hlow
      exact stringBody?_backslash hescape
  | @pair _ _ first second hfirst hsecond hhigh hlow =>
      have hescape : escaped? ('u' :: (first ++ '\\' :: 'u' :: (second ++ rest))) =
          some (Char.ofNat _, rest) :=
        unicodeEscape?_of_pair (hfirst.unit?_append _) (hsecond.unit?_append rest) hhigh hlow
      simpa using stringBody?_backslash hescape

/-- The characters of a string are read from a text that spells them, up to the closing quote. -/
theorem BodyText.stringBody?_append {body text : List Char} (h : BodyText body text)
    (rest : List Char) : stringBody? (text ++ '"' :: rest) = some (body, rest) := by
  induction h with
  | nil => exact stringBody?_quote rest
  | cons hfirst _ ih => rw [List.append_assoc, hfirst.stringBody?_append, ih]; rfl

/-- The characters of a string that are read are spelled by what stands before the quote. -/
theorem bodyText_of_stringBody? {chars body rest : List Char}
    (h : stringBody? chars = some (body, rest)) :
    ∃ text, chars = text ++ '"' :: rest ∧ BodyText body text := by
  fun_induction stringBody? chars generalizing body with
  | case1 | case3 | case5 => simp at h
  | case2 after =>
      obtain ⟨rfl, rfl⟩ := Prod.mk.inj (Option.some.inj h)
      exact ⟨[], rfl, .nil⟩
  | case4 chars c after hescape _ ih =>
      simp only [Option.map_eq_some_iff, Prod.mk.injEq, Prod.exists] at h
      obtain ⟨body, after, hbody, rfl, rfl⟩ := h
      obtain ⟨first, hfirst, htext⟩ := charText_of_escaped? hescape
      obtain ⟨text, rfl, hrest⟩ := ih hbody
      exact ⟨first ++ text, by simp [hfirst], .cons htext hrest⟩
  | case6 c chars hquote hbackslash hcontrol ih =>
      simp only [Option.map_eq_some_iff, Prod.mk.injEq, Prod.exists] at h
      obtain ⟨body, after, hbody, rfl, rfl⟩ := h
      obtain ⟨text, rfl, hrest⟩ := ih hbody
      exact ⟨c :: text, rfl, .cons (.plain hquote hbackslash (Nat.not_lt.mp hcontrol)) hrest⟩

/-! ## Written strings -/

/-- The four digits with which a control character is written spell its unit. -/
theorem unitText_of_lt {n : Nat} (h : n < 0x20) :
    UnitText n ['0', '0', Text.hexDigit (n / 16), Text.hexDigit (n % 16)] := by
  have hzero : Text.hexValue? '0' = some 0 := by decide
  have hhigh : Text.hexValue? (Text.hexDigit (n / 16)) = some (n / 16) :=
    Text.hexValue?_hexDigit (by omega)
  have hlow : Text.hexValue? (Text.hexDigit (n % 16)) = some (n % 16) :=
    Text.hexValue?_hexDigit (by omega)
  have hunit : ((0 * 16 + 0) * 16 + n / 16) * 16 + n % 16 = n := by omega
  have hspell := UnitText.intro hzero hzero hhigh hlow
  rwa [hunit] at hspell

/-- Every character is written as a text that spells it. -/
theorem charText_escape (c : Char) : CharText c (escape c) := by
  unfold escape
  -- Seven characters have a short escape; the other control characters are written by their unit.
  iterate 7
    split
    · next h => subst h; exact .short (by decide)
  split
  · next hcontrol =>
      have hhigh : ¬ IsHighSurrogate c.toNat := fun h => by have := h.1; omega
      have hlow : ¬ IsLowSurrogate c.toNat := fun h => by have := h.1; omega
      have hunit := CharText.unit (unitText_of_lt hcontrol) hhigh hlow
      rwa [Char.ofNat_toNat] at hunit
  · exact .plain (by assumption) (by assumption) (Nat.not_lt.mp (by assumption))

/-- The characters of a string are written as a text that spells them. -/
theorem bodyText_escape (body : List Char) : BodyText body (body.flatMap escape) := by
  induction body with
  | nil => exact .nil
  | cons c rest ih => exact .cons (charText_escape c) ih

/-- A string is written as a text that spells it. -/
theorem lexeme_quote (text : String) : Lexeme (.string text) (quote text.toList) := by
  simpa [quote] using Lexeme.string (bodyText_escape text.toList)

end StyleProps.Json
