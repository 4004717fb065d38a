import StyleProps.Proofs.JsonGrammar
import StyleProps.Text.Separated

/-!
# Reading JSON numbers

What the reader of numbers accepts is what the grammar spells, part by part: digits, the digits
before the point, the fraction, the exponent. A text that spells a numeral is read back if what
follows cannot continue it, which is what `EndsNumeral` says.
-/

namespace StyleProps.Json

/-- Whether a text does not continue a number in front of it. -/
def EndsNumeral (rest : List Char) : Prop :=
  ∀ c ∈ rest.head?, Decimal.isDigit c = false ∧ c ∉ ['.', 'e', 'E']

/-- Digits differ from all other characters. -/
theorem ne_of_isDigit {c d : Char} (hc : Decimal.isDigit c = true)
    (hd : Decimal.isDigit d = false) : c ≠ d := by
  rintro rfl
  rw [hc] at hd
  cases hd

/-- Digits have a first one. -/
theorem IsDigits.exists_cons {digits : List Char} (h : IsDigits digits) :
    ∃ c rest, digits = c :: rest ∧ Decimal.isDigit c = true := by
  obtain ⟨c, rest, rfl⟩ := List.exists_cons_of_ne_nil h.1
  exact ⟨c, rest, rfl, h.2 c List.mem_cons_self⟩

/-- The digits before a point are digits. -/
theorem WholeText.isDigits {chars : List Char} (h : WholeText chars) : IsDigits chars := by
  cases h with
  | zero =>
      refine ⟨by simp, fun c hc => ?_⟩
      obtain rfl := List.mem_singleton.mp hc
      rfl
  | digits hdigits _ => exact hdigits

/-! ## What is read is spelled -/

/-- Digits that are read stand before the rest. -/
theorem isDigits_of_digits? {chars digits rest : List Char}
    (h : digits? chars = some (digits, rest)) : chars = digits ++ rest ∧ IsDigits digits := by
  unfold digits? at h
  dsimp only at h
  split at h
  · simp at h
  · next hne =>
      obtain ⟨rfl, rfl⟩ := Prod.mk.inj (Option.some.inj h)
      refine ⟨List.takeWhile_append_dropWhile.symm, by simpa using hne, fun c hc => ?_⟩
      exact List.all_eq_true.mp (List.all_takeWhile) c hc

/-- The digits before the point that are read stand before the rest. -/
theorem wholeText_of_whole? {chars digits rest : List Char}
    (h : whole? chars = some (digits, rest)) : chars = digits ++ rest ∧ WholeText digits := by
  unfold whole? at h
  split at h
  · obtain ⟨rfl, rfl⟩ := Prod.mk.inj (Option.some.inj h)
    exact ⟨rfl, .zero⟩
  · next hzero =>
      obtain ⟨rfl, hdigits⟩ := isDigits_of_digits? h
      refine ⟨rfl, .digits hdigits fun hhead => ?_⟩
      obtain ⟨c, tail, rfl, _⟩ := hdigits.exists_cons
      obtain rfl := Option.some.inj hhead
      exact hzero _ rfl

/-- A fraction that is read is spelled by what stands before the rest. -/
theorem fractionText_of_fraction? {chars rest : List Char} {fraction : Option (List Char)}
    (h : fraction? chars = some (fraction, rest)) :
    ∃ text, chars = text ++ rest ∧ FractionText fraction text := by
  unfold fraction? at h
  split at h
  · simp only [Option.map_eq_some_iff, Prod.mk.injEq, Prod.exists] at h
    obtain ⟨digits, after, hread, rfl, rfl⟩ := h
    obtain ⟨rfl, hdigits⟩ := isDigits_of_digits? hread
    exact ⟨_, rfl, .present hdigits⟩
  · obtain ⟨rfl, rfl⟩ := Prod.mk.inj (Option.some.inj h)
    exact ⟨[], rfl, .absent⟩

/-- Digits that are read with a factor stand before the rest. -/
theorem isDigits_of_scaledDigits? {factor e : Int} {chars rest : List Char}
    (h : scaledDigits? factor chars = some (e, rest)) :
    ∃ digits, chars = digits ++ rest ∧ IsDigits digits ∧ e = factor * Decimal.value digits := by
  simp only [scaledDigits?, Option.map_eq_some_iff, Prod.mk.injEq, Prod.exists] at h
  obtain ⟨digits, after, hread, rfl, rfl⟩ := h
  obtain ⟨rfl, hdigits⟩ := isDigits_of_digits? hread
  exact ⟨digits, rfl, hdigits, rfl⟩

/-- An exponent that is read consists of a sign and of digits. -/
theorem exists_sign_of_exponent? {chars rest : List Char} {e : Int}
    (h : exponent? chars = some (e, rest)) :
    ∃ sign factor digits, chars = sign ++ digits ++ rest ∧ (sign, factor) ∈ exponentSigns ∧
      IsDigits digits ∧ e = factor * Decimal.value digits := by
  unfold exponent? at h
  split at h
  · obtain ⟨digits, rfl, hdigits, rfl⟩ := isDigits_of_scaledDigits? h
    exact ⟨['-'], -1, digits, rfl, by decide, hdigits, rfl⟩
  · obtain ⟨digits, rfl, hdigits, rfl⟩ := isDigits_of_scaledDigits? h
    exact ⟨['+'], 1, digits, rfl, by decide, hdigits, rfl⟩
  · obtain ⟨digits, rfl, hdigits, rfl⟩ := isDigits_of_scaledDigits? h
    exact ⟨[], 1, digits, rfl, by decide, hdigits, rfl⟩

/-- An optional exponent that is read is spelled by what stands before the rest. -/
theorem exponentText_of_optionalExponent? {chars rest : List Char} {exponent : Option Int}
    (h : optionalExponent? chars = some (exponent, rest)) :
    ∃ text, chars = text ++ rest ∧ ExponentText exponent text := by
  unfold optionalExponent? at h
  split at h
  · next c after =>
      split at h
      · next hletter =>
          simp only [Option.map_eq_some_iff, Prod.mk.injEq, Prod.exists] at h
          obtain ⟨e, after, he, rfl, rfl⟩ := h
          obtain ⟨sign, factor, digits, rfl, hsign, hdigits, rfl⟩ := exists_sign_of_exponent? he
          exact ⟨_, rfl, .present (by simpa using hletter) hsign hdigits⟩
      · obtain ⟨rfl, rfl⟩ := Prod.mk.inj (Option.some.inj h)
        exact ⟨[], rfl, .absent⟩
  · obtain ⟨rfl, rfl⟩ := Prod.mk.inj (Option.some.inj h)
    exact ⟨[], rfl, .absent⟩

/-- A numeral that is read is spelled by what stands before the rest. -/
theorem numeralText_of_numeral? {negative : Bool} {chars rest : List Char} {numeral : Numeral}
    (h : numeral? negative chars = some (numeral, rest)) :
    numeral.negative = negative ∧ ∃ text, chars = text ++ rest ∧ NumeralText numeral text := by
  simp only [numeral?, Option.bind_eq_bind, Option.bind_eq_some_iff, Option.pure_def,
    Option.some.injEq, Prod.mk.injEq, Prod.exists] at h
  obtain ⟨whole, _, hreadWhole, _, _, hreadFraction, _, after, hreadExponent, rfl, rfl⟩ := h
  obtain ⟨rfl, hwhole⟩ := wholeText_of_whole? hreadWhole
  obtain ⟨fraction, rfl, hfraction⟩ := fractionText_of_fraction? hreadFraction
  obtain ⟨exponent, rfl, hexponent⟩ := exponentText_of_optionalExponent? hreadExponent
  exact ⟨rfl, whole ++ (fraction ++ exponent), by simp, .intro hwhole hfraction hexponent⟩

/-- A numeral that is read as a token is spelled, with its sign, by what stands before the rest. -/
theorem lexeme_of_numeralToken? {negative : Bool} {chars rest : List Char} {t : Token}
    (h : numeralToken? negative chars = some (t, rest)) :
    ∃ lexeme, (if negative then ['-'] else []) ++ chars = lexeme ++ rest ∧ Lexeme t lexeme := by
  simp only [numeralToken?, Option.bind_eq_bind, Option.bind_eq_some_iff, Option.pure_def,
    Option.some.injEq, Prod.mk.injEq, Prod.exists] at h
  obtain ⟨numeral, _, hread, n, hrange, rfl, rfl⟩ := h
  obtain ⟨rfl, text, rfl, htext⟩ := numeralText_of_numeral? hread
  exact ⟨_, (List.append_assoc ..).symm, .number htext hrange⟩

/-- A number that is read is spelled by what stands before the rest. -/
theorem lexeme_of_numberToken? {chars rest : List Char} {t : Token}
    (h : numberToken? chars = some (t, rest)) :
    ∃ lexeme, chars = lexeme ++ rest ∧ Lexeme t lexeme := by
  unfold numberToken? at h
  split at h <;> exact lexeme_of_numeralToken? h

/-! ## What is spelled is read -/

/-- Digits are read up to a character that is none. -/
theorem IsDigits.digits?_append {digits rest : List Char} (h : IsDigits digits)
    (hrest : ∀ c ∈ rest.head?, Decimal.isDigit c = false) :
    digits? (digits ++ rest) = some (digits, rest) := by
  obtain ⟨htake, hdrop⟩ := Text.span_append h.2 hrest
  simp [digits?, htake, hdrop, h.1]

/-- The digits before a point are read up to a character that is none. -/
theorem WholeText.whole?_append {digits rest : List Char} (h : WholeText digits)
    (hrest : ∀ c ∈ rest.head?, Decimal.isDigit c = false) :
    whole? (digits ++ rest) = some (digits, rest) := by
  cases h with
  | zero => rfl
  | digits hdigits hhead =>
      obtain ⟨c, tail, rfl, _⟩ := hdigits.exists_cons
      unfold whole?
      split
      · next heq =>
          obtain ⟨rfl, _⟩ := List.cons.inj heq
          exact absurd rfl hhead
      · exact hdigits.digits?_append hrest

/-- A fraction is read from a text that spells it. -/
theorem FractionText.fraction?_append {fraction : Option (List Char)} {text rest : List Char}
    (h : FractionText fraction text)
    (hrest : ∀ c ∈ rest.head?, Decimal.isDigit c = false ∧ c ≠ '.') :
    fraction? (text ++ rest) = some (fraction, rest) := by
  cases h with
  | absent =>
      rw [List.nil_append]
      unfold fraction?
      split
      · exact absurd rfl (hrest '.' rfl).2
      · rfl
  | present hdigits =>
      have hread := hdigits.digits?_append fun c hc => (hrest c hc).1
      simp [fraction?, hread]

/-- An exponent is read from its sign and its digits. -/
theorem IsDigits.exponent?_append {sign digits rest : List Char} {factor : Int}
    (h : IsDigits digits) (hsign : (sign, factor) ∈ exponentSigns)
    (hrest : ∀ c ∈ rest.head?, Decimal.isDigit c = false) :
    exponent? (sign ++ digits ++ rest) = some (factor * Decimal.value digits, rest) := by
  have hread (factor : Int) :
      scaledDigits? factor (digits ++ rest) = some (factor * Decimal.value digits, rest) := by
    simp [scaledDigits?, h.digits?_append hrest]
  simp only [exponentSigns, List.mem_cons, Prod.mk.injEq, List.not_mem_nil, or_false] at hsign
  rcases hsign with ⟨rfl, rfl⟩ | ⟨rfl, rfl⟩ | ⟨rfl, rfl⟩
  · obtain ⟨c, tail, rfl, hc⟩ := h.exists_cons
    unfold exponent?
    split
    · next heq => exact absurd (List.cons.inj heq).1 (ne_of_isDigit hc (by decide))
    · next heq => exact absurd (List.cons.inj heq).1 (ne_of_isDigit hc (by decide))
    · exact hread 1
  · exact hread 1
  · exact hread (-1)

/-- An optional exponent is read from a text that spells it. -/
theorem ExponentText.optionalExponent?_append {exponent : Option Int} {text rest : List Char}
    (h : ExponentText exponent text) (hrest : EndsNumeral rest) :
    optionalExponent? (text ++ rest) = some (exponent, rest) := by
  cases h with
  | absent =>
      cases rest with
      | nil => rfl
      | cons c rest =>
          have hletter := (hrest c rfl).2
          simp only [List.mem_cons, List.not_mem_nil, or_false, not_or] at hletter
          simp [optionalExponent?, hletter.2]
  | present hletter hsign hdigits =>
      have hread := hdigits.exponent?_append hsign fun c hc => (hrest c hc).1
      rw [List.append_assoc] at hread
      rcases hletter with rfl | rfl <;> simp [optionalExponent?, hread]

/-- What follows a fraction continues neither digits nor a fraction. -/
theorem ExponentText.head_append {exponent : Option Int} {text rest : List Char}
    (h : ExponentText exponent text) (hrest : EndsNumeral rest) :
    ∀ c ∈ (text ++ rest).head?, Decimal.isDigit c = false ∧ c ≠ '.' := by
  cases h with
  | absent =>
      intro c hc
      obtain ⟨hdigit, hmark⟩ := hrest c hc
      exact ⟨hdigit, fun hpoint => hmark (by simp [hpoint])⟩
  | present hletter =>
      intro c hc
      obtain rfl := Option.some.inj hc
      rcases hletter with rfl | rfl <;> decide

/-- What follows the digits before a point continues no digits. -/
theorem FractionText.head_append {fraction : Option (List Char)} {text rest : List Char}
    (h : FractionText fraction text) (hrest : ∀ c ∈ rest.head?, Decimal.isDigit c = false) :
    ∀ c ∈ (text ++ rest).head?, Decimal.isDigit c = false := by
  cases h with
  | absent => exact hrest
  | present =>
      intro c hc
      obtain rfl := Option.some.inj hc
      decide

/-- A numeral is read from a text that spells it. -/
theorem NumeralText.numeral?_append {numeral : Numeral} {text rest : List Char}
    (h : NumeralText numeral text) (hrest : EndsNumeral rest) :
    numeral? numeral.negative (text ++ rest) = some (numeral, rest) := by
  cases h with
  | @intro fraction exponent hwhole hfraction hexponent =>
      have hafterFraction := hexponent.head_append hrest
      have hafterWhole := hfraction.head_append fun c hc => (hafterFraction c hc).1
      have hreadWhole := hwhole.whole?_append hafterWhole
      have hreadFraction := hfraction.fraction?_append hafterFraction
      have hreadExponent := hexponent.optionalExponent?_append hrest
      simp [numeral?, hreadWhole, hreadFraction, hreadExponent]

/-- The text of a numeral begins with a digit. -/
theorem NumeralText.exists_cons {numeral : Numeral} {text : List Char}
    (h : NumeralText numeral text) : ∃ c rest, text = c :: rest ∧ Decimal.isDigit c = true := by
  cases h with
  | intro hwhole _ _ =>
      obtain ⟨c, tail, hcons, hc⟩ := hwhole.isDigits.exists_cons
      exact ⟨c, _, by rw [hcons]; rfl, hc⟩

/-- A number within range is read from its sign and the text of its numeral. -/
theorem NumeralText.numberToken?_append {numeral : Numeral} {n : Number} {text rest : List Char}
    (h : NumeralText numeral text) (hrange : numeral.number? = some n)
    (hrest : EndsNumeral rest) :
    numberToken? (numeral.sign ++ text ++ rest) = some (.number n, rest) := by
  have hread : numeralToken? numeral.negative (text ++ rest) = some (.number n, rest) := by
    simp [numeralToken?, h.numeral?_append hrest, hrange]
  rw [List.append_assoc, Numeral.sign]
  cases hnegative : numeral.negative with
  | true =>
      rw [hnegative] at hread
      exact hread
  | false =>
      obtain ⟨c, tail, rfl, hc⟩ := h.exists_cons
      unfold numberToken?
      split
      · next heq => exact absurd (List.cons.inj heq).1 (ne_of_isDigit hc (by decide))
      · rw [hnegative] at hread
        exact hread

end StyleProps.Json
