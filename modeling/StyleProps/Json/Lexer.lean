import StyleProps.Json.Token
import StyleProps.Decimal.Scaled

/-!
# Reading JSON tokens

The tokens of a JSON text, with blanks between them skipped. `lex?` fails on any text that is no
sequence of tokens: a control character or a lone half of a surrogate pair in a string, a number
with a leading zero, without digits or out of range, a word other than the three of JSON.
-/

namespace StyleProps.Json

/-- The four blanks of JSON. -/
def isBlank (c : Char) : Bool :=
  c = ' ' || c = '\t' || c = '\n' || c = '\r'

/-- The sixteen-bit unit of four hexadecimal digits, and the characters after them. -/
def unit? : List Char → Option (Nat × List Char)
  | a :: b :: c :: d :: rest => do
      let a ← Text.hexValue? a
      let b ← Text.hexValue? b
      let c ← Text.hexValue? c
      let d ← Text.hexValue? d
      pure (((a * 16 + b) * 16 + c) * 16 + d, rest)
  | _ => none

/-- The character of an escape that begins with the letter `u`: one unit, or two for a character
that needs a surrogate pair. -/
def unicodeEscape? (chars : List Char) : Option (Char × List Char) := do
  let (unit, rest) ← unit? chars
  if 0xDC00 ≤ unit && unit ≤ 0xDFFF then none
  else if 0xD800 ≤ unit && unit ≤ 0xDBFF then
    match rest with
    | '\\' :: 'u' :: rest =>
        let (second, rest) ← unit? rest
        if 0xDC00 ≤ second && second ≤ 0xDFFF then
          pure (Char.ofNat (0x10000 + (unit - 0xD800) * 0x400 + (second - 0xDC00)), rest)
        else none
    | _ => none
  else pure (Char.ofNat unit, rest)

/-- The character of an escape, given what follows the backslash. -/
def escaped? : List Char → Option (Char × List Char)
  | '"' :: rest => some ('"', rest)
  | '\\' :: rest => some ('\\', rest)
  | '/' :: rest => some ('/', rest)
  | 'b' :: rest => some ('\x08', rest)
  | 'f' :: rest => some ('\x0c', rest)
  | 'n' :: rest => some ('\n', rest)
  | 'r' :: rest => some ('\r', rest)
  | 't' :: rest => some ('\t', rest)
  | 'u' :: rest => unicodeEscape? rest
  | _ => none

/-- Four digits are read from the front. -/
theorem length_of_unit? {chars rest : List Char} {n : Nat} (h : unit? chars = some (n, rest)) :
    rest.length < chars.length := by
  unfold unit? at h
  split at h
  · simp only [Option.bind_eq_bind, Option.bind_eq_some_iff, Option.pure_def, Option.some.injEq,
      Prod.mk.injEq] at h
    obtain ⟨_, _, _, _, _, _, _, _, _, rfl⟩ := h
    simp only [List.length_cons]
    omega
  · simp at h

/-- An escape is read from the front. -/
theorem length_of_unicodeEscape? {chars rest : List Char} {c : Char}
    (h : unicodeEscape? chars = some (c, rest)) : rest.length < chars.length := by
  unfold unicodeEscape? at h
  simp only [Option.bind_eq_bind, Option.bind_eq_some_iff] at h
  obtain ⟨⟨unit, after⟩, hunit, h⟩ := h
  have hlen := length_of_unit? hunit
  dsimp only at h
  split at h
  · simp at h
  · split at h
    · split at h
      · rename_i second
        simp only [Option.bind_eq_some_iff] at h
        obtain ⟨⟨low, after'⟩, hlow, h⟩ := h
        have hlen' := length_of_unit? hlow
        dsimp only at h
        split at h
        · simp only [Option.pure_def, Option.some.injEq, Prod.mk.injEq] at h
          obtain ⟨_, rfl⟩ := h
          simp only [List.length_cons] at hlen
          omega
        · simp at h
      · simp at h
    · simp only [Option.pure_def, Option.some.injEq, Prod.mk.injEq] at h
      obtain ⟨_, rfl⟩ := h
      exact hlen

/-- An escape is read from the front. -/
theorem length_of_escaped? {chars rest : List Char} {c : Char}
    (h : escaped? chars = some (c, rest)) : rest.length < chars.length := by
  unfold escaped? at h
  split at h
  case h_9 =>
    exact Nat.lt_succ_of_lt (length_of_unicodeEscape? h)
  case h_10 => simp at h
  all_goals
    simp only [Option.some.injEq, Prod.mk.injEq] at h
    obtain ⟨_, rfl⟩ := h
    simp

/-- The characters of a string up to its closing quote, and the characters after the quote. -/
def stringBody? (chars : List Char) : Option (List Char × List Char) :=
  match chars with
  | [] => none
  | c :: rest =>
      if c = '"' then some ([], rest)
      else if c = '\\' then
        match _h : escaped? rest with
        | none => none
        | some (e, rest') =>
            (stringBody? rest').map fun (body, after) => (e :: body, after)
      else if c.toNat < 0x20 then none
      else (stringBody? rest).map fun (body, after) => (c :: body, after)
termination_by chars.length
decreasing_by
  · have := length_of_escaped? _h
    simp only [List.length_cons]
    omega
  · simp

/-- A string is read from the front. -/
theorem length_of_stringBody? {chars body rest : List Char}
    (h : stringBody? chars = some (body, rest)) : rest.length < chars.length := by
  fun_induction stringBody? chars generalizing body with
  | case1 => simp at h
  | case2 rest' => simp_all
  | case3 => simp at h
  | case4 rest' _ after' hesc _ ih =>
      simp only [Option.map_eq_some_iff, Prod.mk.injEq, Prod.exists] at h
      obtain ⟨b, r, hb, _, rfl⟩ := h
      have := ih hb
      have := length_of_escaped? hesc
      simp only [List.length_cons]
      omega
  | case5 => simp at h
  | case6 c rest' _ _ _ ih =>
      simp only [Option.map_eq_some_iff, Prod.mk.injEq, Prod.exists] at h
      obtain ⟨b, r, hb, _, rfl⟩ := h
      have := ih hb
      simp only [List.length_cons]
      omega

/-- The greatest significand that is read: further digits of a number only move its point. -/
def significandLimit : Nat := Nat.pow 2 64 - 1

/-- Takes up digits into a significand while it stays within the limit, and returns it with the
number of digits that were taken. -/
def absorb (significand : Nat) : List Char → Nat × Nat
  | [] => (significand, 0)
  | c :: rest =>
      let next := significand * 10 + Decimal.digitValue c
      if significandLimit < next then (significand, 0)
      else
        let (final, taken) := absorb next rest
        (final, taken + 1)

/-- The parts of a number: its sign, the digits before and after the point, and the exponent. -/
structure Numeral where
  negative : Bool
  whole : List Char
  fraction : Option (List Char)
  exponent : Option Int

/-- The number that a numeral stands for, or `none` if it is out of range. An integer that fits
sixty-four bits is read exactly. Any other number is read through its significand; the minus sign of
a zero is kept. -/
def Numeral.number? (numeral : Numeral) : Option Number :=
  -- Digits beyond the limit are not read, but every one before the point counts in the exponent.
  let (significand, taken) := absorb 0 numeral.whole
  let dropped := numeral.whole.length - taken
  let float? (significand : Nat) (exponent : Int) : Option Number :=
    (Decimal.scaled? significand exponent).map fun x => .float (if numeral.negative then -x else x)
  match numeral.fraction, numeral.exponent with
  | none, none =>
      if dropped ≠ 0 then float? significand dropped
      else if !numeral.negative then some (.integer significand)
      -- A negative zero is no integer, and neither is a number below the least one of its width.
      else if significand = 0 || Nat.pow 2 63 < significand then float? significand 0
      else some (.integer (-significand))
  | fraction, exponent =>
      let (significand, decimals) := absorb significand (fraction.getD [])
      float? significand (dropped - decimals + exponent.getD 0)

/-- The digits at the front, of which there must be one, and the characters after them. -/
def digits? (chars : List Char) : Option (List Char × List Char) :=
  let digits := chars.takeWhile Decimal.isDigit
  if digits.isEmpty then none else some (digits, chars.dropWhile Decimal.isDigit)

/-- The digits before the point: a zero alone, or digits of which the first is no zero. -/
def whole? : List Char → Option (List Char × List Char)
  | '0' :: rest => some (['0'], rest)
  | chars => digits? chars

/-- The digits after the point, if there is one. -/
def fraction? : List Char → Option (Option (List Char) × List Char)
  | '.' :: rest => (digits? rest).map fun (digits, after) => (some digits, after)
  | chars => some (none, chars)

/-- The number of the digits at the front, times a sign, and the characters after them. -/
def scaledDigits? (sign : Int) (chars : List Char) : Option (Int × List Char) :=
  (digits? chars).map fun (digits, after) => (sign * Decimal.value digits, after)

/-- The exponent that follows the letter `e`, with its sign. -/
def exponent? : List Char → Option (Int × List Char)
  | '-' :: rest => scaledDigits? (-1) rest
  | '+' :: rest => scaledDigits? 1 rest
  | rest => scaledDigits? 1 rest

/-- The exponent, if there is one. -/
def optionalExponent? : List Char → Option (Option Int × List Char)
  | c :: rest =>
      if c = 'e' || c = 'E' then (exponent? rest).map fun (e, after) => (some e, after)
      else some (none, c :: rest)
  | [] => some (none, [])

/-- The numeral at the front, and the characters after it. -/
def numeral? (negative : Bool) (chars : List Char) : Option (Numeral × List Char) := do
  let (whole, chars) ← whole? chars
  let (fraction, chars) ← fraction? chars
  let (exponent, chars) ← optionalExponent? chars
  pure (⟨negative, whole, fraction, exponent⟩, chars)

/-- The numeral at the front as a token, and the characters after it. -/
def numeralToken? (negative : Bool) (chars : List Char) : Option (Token × List Char) := do
  let (numeral, rest) ← numeral? negative chars
  let number ← numeral.number?
  pure (.number number, rest)

/-- The number at the front, and the characters after it. -/
def numberToken? : List Char → Option (Token × List Char)
  | '-' :: rest => numeralToken? true rest
  | chars => numeralToken? false chars

/-- The token at the front of a text that begins with no blank, and the characters after it. -/
def token? : List Char → Option (Token × List Char)
  | '[' :: rest => some (.leftBracket, rest)
  | ']' :: rest => some (.rightBracket, rest)
  | '\x7b' :: rest => some (.leftBrace, rest)
  | '\x7d' :: rest => some (.rightBrace, rest)
  | ',' :: rest => some (.comma, rest)
  | ':' :: rest => some (.colon, rest)
  | '"' :: rest => (stringBody? rest).map fun (body, after) => (.string (String.ofList body), after)
  | 'n' :: 'u' :: 'l' :: 'l' :: rest => some (.null, rest)
  | 't' :: 'r' :: 'u' :: 'e' :: rest => some (.bool true, rest)
  | 'f' :: 'a' :: 'l' :: 's' :: 'e' :: rest => some (.bool false, rest)
  | chars => numberToken? chars

/-- Digits are read from the front. -/
theorem length_of_digits? {chars digits rest : List Char}
    (h : digits? chars = some (digits, rest)) : rest.length < chars.length := by
  unfold digits? at h
  dsimp only at h
  split at h
  · simp at h
  · next hne =>
      simp only [Option.some.injEq, Prod.mk.injEq] at h
      obtain ⟨_, rfl⟩ := h
      have hsplit : (chars.takeWhile Decimal.isDigit ++ chars.dropWhile Decimal.isDigit).length =
          chars.length := by rw [List.takeWhile_append_dropWhile]
      have hpos : 0 < (chars.takeWhile Decimal.isDigit).length := by
        rw [List.length_pos_iff]
        simpa using hne
      rw [List.length_append] at hsplit
      omega

/-- The digits before the point are read from the front. -/
theorem length_of_whole? {chars digits rest : List Char} (h : whole? chars = some (digits, rest)) :
    rest.length < chars.length := by
  unfold whole? at h
  split at h
  · simp only [Option.some.injEq, Prod.mk.injEq] at h
    obtain ⟨_, rfl⟩ := h
    simp
  · exact length_of_digits? h

/-- Reading an optional fraction adds no characters. -/
theorem length_of_fraction? {chars rest : List Char} {digits : Option (List Char)}
    (h : fraction? chars = some (digits, rest)) : rest.length ≤ chars.length := by
  unfold fraction? at h
  split at h
  · simp only [Option.map_eq_some_iff, Prod.mk.injEq, Prod.exists] at h
    obtain ⟨_, _, hd, _, rfl⟩ := h
    have := length_of_digits? hd
    simp only [List.length_cons]
    omega
  · simp only [Option.some.injEq, Prod.mk.injEq] at h
    obtain ⟨_, rfl⟩ := h
    exact Nat.le_refl _

/-- Digits with a sign are read from the front. -/
theorem length_of_scaledDigits? {sign e : Int} {chars rest : List Char}
    (h : scaledDigits? sign chars = some (e, rest)) : rest.length < chars.length := by
  simp only [scaledDigits?, Option.map_eq_some_iff, Prod.mk.injEq, Prod.exists] at h
  obtain ⟨_, _, hd, _, rfl⟩ := h
  exact length_of_digits? hd

/-- Reading an exponent adds no characters. -/
theorem length_of_exponent? {chars rest : List Char} {e : Int}
    (h : exponent? chars = some (e, rest)) : rest.length ≤ chars.length := by
  unfold exponent? at h
  split at h
  · exact Nat.le_succ_of_le (Nat.le_of_lt (length_of_scaledDigits? h))
  · exact Nat.le_succ_of_le (Nat.le_of_lt (length_of_scaledDigits? h))
  · exact Nat.le_of_lt (length_of_scaledDigits? h)

/-- Reading an optional exponent adds no characters. -/
theorem length_of_optionalExponent? {chars rest : List Char} {e : Option Int}
    (h : optionalExponent? chars = some (e, rest)) : rest.length ≤ chars.length := by
  unfold optionalExponent? at h
  split at h
  · split at h
    · simp only [Option.map_eq_some_iff, Prod.mk.injEq, Prod.exists] at h
      obtain ⟨_, _, he, _, rfl⟩ := h
      have := length_of_exponent? he
      simp only [List.length_cons]
      omega
    · simp only [Option.some.injEq, Prod.mk.injEq] at h
      obtain ⟨_, rfl⟩ := h
      exact Nat.le_refl _
  · simp only [Option.some.injEq, Prod.mk.injEq] at h
    obtain ⟨_, rfl⟩ := h
    exact Nat.le_refl _

/-- A numeral is read from the front. -/
theorem length_of_numeral? {negative : Bool} {chars rest : List Char} {numeral : Numeral}
    (h : numeral? negative chars = some (numeral, rest)) : rest.length < chars.length := by
  unfold numeral? at h
  simp only [Option.bind_eq_bind, Option.bind_eq_some_iff, Option.pure_def, Option.some.injEq,
    Prod.mk.injEq, Prod.exists] at h
  obtain ⟨_, _, hw, _, _, hf, _, _, he, _, rfl⟩ := h
  have := length_of_whole? hw
  have := length_of_fraction? hf
  have := length_of_optionalExponent? he
  omega

/-- A numeral is read from the front. -/
theorem length_of_numeralToken? {negative : Bool} {chars rest : List Char} {token : Token}
    (h : numeralToken? negative chars = some (token, rest)) : rest.length < chars.length := by
  unfold numeralToken? at h
  simp only [Option.bind_eq_bind, Option.bind_eq_some_iff, Option.pure_def, Option.some.injEq,
    Prod.mk.injEq, Prod.exists] at h
  obtain ⟨_, _, hn, _, _, _, rfl⟩ := h
  exact length_of_numeral? hn

/-- A number is read from the front. -/
theorem length_of_numberToken? {chars rest : List Char} {token : Token}
    (h : numberToken? chars = some (token, rest)) : rest.length < chars.length := by
  unfold numberToken? at h
  split at h
  · have := length_of_numeralToken? h
    simp only [List.length_cons]
    omega
  · exact length_of_numeralToken? h

/-- A token is read from the front. -/
theorem length_of_token? {chars rest : List Char} {token : Token}
    (h : token? chars = some (token, rest)) : rest.length < chars.length := by
  unfold token? at h
  split at h
  case h_7 =>
    simp only [Option.map_eq_some_iff, Prod.mk.injEq, Prod.exists] at h
    obtain ⟨_, _, hs, _, rfl⟩ := h
    have := length_of_stringBody? hs
    simp only [List.length_cons]
    omega
  case h_11 => exact length_of_numberToken? h
  all_goals
    simp only [Option.some.injEq, Prod.mk.injEq] at h
    obtain ⟨_, rfl⟩ := h
    simp only [List.length_cons]
    omega

/-- The tokens of a text, with blanks between them skipped. -/
def lex? (chars : List Char) : Option (List Token) :=
  match chars with
  | [] => some []
  | c :: rest =>
      if isBlank c then lex? rest
      else
        match _h : token? (c :: rest) with
        | none => none
        | some (token, rest') => (lex? rest').map (token :: ·)
termination_by chars.length
decreasing_by
  · simp
  · exact length_of_token? _h

end StyleProps.Json
