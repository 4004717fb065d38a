import Mathlib.Algebra.Ring.Int.Defs
import Mathlib.Algebra.Ring.Nat
import StyleProps.Proofs.JsonPrinting

/-!
# Integers in JSON

An integer is written with its digits and read exactly. `rereads_integer` says that every integer
that fits sixty-four bits, with or without a sign, reads back, and `fitsWord_of_isDocument` that no
other integer occurs in a value that was read. So among the numbers of such a value only the
floating-point ones may fail to read back.
-/

namespace StyleProps

namespace Decimal

/-- Digits are written with digit characters. -/
theorem isDigit_of_mem_digits {n : Nat} {c : Char} (h : c ∈ digits n) : isDigit c = true := by
  have hdigit : c.isDigit = true := Nat.isDigit_of_mem_toDigits (by decide) (by decide) h
  simpa [isDigit, Char.isDigit, Char.le_def] using hdigit

/-- The first of several digits is not zero. -/
theorem head?_digits_ne_zero {n : Nat} (h : n ≠ 0) : (digits n).head? ≠ some '0' := by
  unfold digits
  induction n using Nat.strong_induction_on with
  | _ n ih =>
      by_cases hlt : n < 10
      · have hall : ∀ d : Fin 10, d.val ≠ 0 → d.val.digitChar ≠ '0' := by decide
        rw [Nat.toDigits_of_lt_base hlt]
        simpa using hall ⟨n, hlt⟩ h
      · rw [Nat.toDigits_of_base_le (by decide) (by omega),
          List.head?_append_of_ne_nil _ Nat.toDigits_ne_nil]
        exact ih (n / 10) (by omega) (by omega)

/-- The value of the digits of a number is the number. -/
theorem value_digits (n : Nat) : value (digits n) = n :=
  Nat.ofDigitChars_toDigits (by decide) (by decide)

end Decimal

namespace Json

/-! ## Digits -/

/-- The digits of a number are digits. -/
theorem isDigits_digits (n : Nat) : IsDigits (Decimal.digits n) :=
  ⟨Nat.toDigits_ne_nil, fun _ => Decimal.isDigit_of_mem_digits⟩

/-- The digits of a number can stand before a point. -/
theorem wholeText_digits (n : Nat) : WholeText (Decimal.digits n) := by
  by_cases h : n = 0
  · subst h
    exact .zero
  · exact .digits (isDigits_digits n) (Decimal.head?_digits_ne_zero h)

/-- The value of a significand that is followed by digits. -/
def extended (significand : Nat) (chars : List Char) : Nat :=
  chars.foldl (fun n c => 10 * n + Decimal.digitValue c) significand

/-- Digits only make a significand greater. -/
theorem le_extended (significand : Nat) (chars : List Char) :
    significand ≤ extended significand chars := by
  induction chars generalizing significand with
  | nil => exact Nat.le_refl _
  | cons c rest ih =>
      have hnext : significand ≤ 10 * significand + Decimal.digitValue c := by omega
      exact hnext.trans (ih _)

/-- Digits are taken up to the last one if the significand stays within the limit. -/
theorem absorb_eq {significand : Nat} {chars : List Char}
    (h : extended significand chars ≤ significandLimit) :
    absorb significand chars = (extended significand chars, chars.length) := by
  induction chars generalizing significand with
  | nil => rfl
  | cons c rest ih =>
      -- With the last digit within the limit, the significand is within it after each digit.
      have hnext : significand * 10 + Decimal.digitValue c =
          10 * significand + Decimal.digitValue c := by rw [Nat.mul_comm]
      have hle : 10 * significand + Decimal.digitValue c ≤ significandLimit :=
        (le_extended _ rest).trans h
      rw [absorb]
      simp only [hnext, if_neg (Nat.not_lt.mpr hle), ih h]
      rfl

/-- A significand stays within the limit. -/
theorem absorb_le {significand : Nat} (chars : List Char) (h : significand ≤ significandLimit) :
    (absorb significand chars).1 ≤ significandLimit := by
  induction chars generalizing significand with
  | nil => exact h
  | cons c rest ih =>
      rw [absorb]
      dsimp only
      split
      · exact h
      · exact ih (Nat.not_lt.mp ‹_›)

/-! ## Integers that are read -/

/-- Whether an integer fits sixty-four bits, with or without a sign. -/
def FitsWord (k : Int) : Prop :=
  -2 ^ 63 ≤ k ∧ k < 2 ^ 64

/-- The limit of a significand is the greatest number of sixty-four bits. -/
theorem significandLimit_eq : significandLimit = 2 ^ 64 - 1 := rfl

/-- An integer that is read fits. -/
theorem fitsWord_of_number? {numeral : Numeral} {k : Int}
    (h : numeral.number? = some (.integer k)) : FitsWord k := by
  have hle : (absorb 0 numeral.whole).1 ≤ significandLimit := absorb_le _ (Nat.zero_le _)
  rw [significandLimit_eq] at hle
  have hpow : Nat.pow 2 63 = 2 ^ 63 := rfl
  unfold Numeral.number? at h
  simp only [hpow] at h
  unfold FitsWord
  split at h
  · split at h
    · simp at h
    · split at h
      · obtain rfl := Number.integer.inj (Option.some.inj h)
        omega
      · split at h
        · simp at h
        · next hsmall =>
            simp only [Bool.or_eq_true, decide_eq_true_eq, not_or] at hsmall
            obtain rfl := Number.integer.inj (Option.some.inj h)
            omega
  · simp at h

/-- Whatever integer a text spells fits. -/
theorem fitsWord_of_spells {chars : List Char} {ts : List Token} (h : Spells chars ts) {k : Int}
    (hk : .number (.integer k) ∈ ts) : FitsWord k := by
  induction h with
  | nil => cases hk
  | blank _ _ ih => exact ih hk
  | token hlexeme _ ih =>
      rcases List.mem_cons.mp hk with rfl | hrest
      · cases hlexeme with
        | number _ hrange => exact fitsWord_of_number? hrange
      · exact ih hrest

/-- The integers in a value that was read fit. -/
theorem fitsWord_of_isDocument {text : String} {value : Json} (h : IsDocument text value) {k : Int}
    (hk : .number (.integer k) ∈ tokens value) : FitsWord k :=
  fitsWord_of_spells (isDocument_iff.mp h).1 hk

/-! ## Integers that are written -/

/-- The digits of a number within the limit are all taken up. -/
theorem absorb_digits {n : Nat} (h : n ≤ significandLimit) :
    absorb 0 (Decimal.digits n) = (n, (Decimal.digits n).length) := by
  have hvalue : extended 0 (Decimal.digits n) = n := Decimal.value_digits n
  rw [absorb_eq (hvalue.symm ▸ h), hvalue]

/-- Digits are read as the number that they were written for. -/
theorem number?_digits {n : Nat} (h : n ≤ significandLimit) :
    Numeral.number? ⟨false, Decimal.digits n, none, none⟩ = some (.integer n) := by
  simp [Numeral.number?, absorb_digits h]

/-- Digits after a minus sign are read as the negative number that they were written for. -/
theorem number?_negative_digits {n : Nat} (hpos : n ≠ 0) (h : n ≤ 2 ^ 63) :
    Numeral.number? ⟨true, Decimal.digits n, none, none⟩ = some (.integer (-n)) := by
  have hlimit : n ≤ significandLimit := by
    rw [significandLimit_eq]
    omega
  have hroom : ¬ Nat.pow 2 63 < n := Nat.not_lt.mpr h
  simp [Numeral.number?, absorb_digits hlimit, hpos, hroom]

/-- The text of an integer that fits spells it. -/
theorem lexeme_signedDigits {k : Int} (h : FitsWord k) :
    Lexeme (.number (.integer k)) (Decimal.signedDigits k) := by
  have htext (negative : Bool) (n : Nat) :
      NumeralText ⟨negative, Decimal.digits n, none, none⟩ (Decimal.digits n ++ ([] ++ [])) :=
    .intro (wholeText_digits n) .absent .absent
  simp only [List.append_nil] at htext
  unfold FitsWord at h
  cases k with
  | ofNat n =>
      refine .number (htext false n) (number?_digits ?_)
      rw [Int.ofNat_eq_natCast] at h
      rw [significandLimit_eq]
      omega
  | negSucc n =>
      exact .number (htext true (n + 1)) (number?_negative_digits (by omega) (by omega))

/-- An integer that fits reads back. -/
theorem rereads_integer {k : Int} (h : FitsWord k) : (Number.integer k).Rereads := by
  refine parse?_eq_some_iff.mpr (isDocument_iff.mpr ⟨?_, Nat.zero_le _⟩)
  rw [String.toList_ofList]
  exact (lexeme_signedDigits h).spells

end Json

end StyleProps
