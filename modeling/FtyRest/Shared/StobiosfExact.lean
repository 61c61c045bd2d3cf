import FtyRest.Shared.Stobiosf
import Mathlib.Tactic.Linarith
import Mathlib.Tactic.Positivity

/-!
# The texts that `stobiosf` reads exactly
-/

namespace FtyRest.Shared

open Stoi Strtod

/-! ## The fraction that is read -/

theorem rdropWhile_append_cons {p : Char → Bool} {c : Char} (hc : ¬ p c = true)
    (l r : List Char) : (l ++ c :: r).rdropWhile p = l ++ c :: r.rdropWhile p := by
  induction r using List.reverseRecOn with
  | nil => rw [List.rdropWhile_concat_neg _ _ _ hc, List.rdropWhile_nil]
  | append_singleton r d ih =>
    have hsplit : l ++ c :: (r ++ [d]) = (l ++ c :: r) ++ [d] := by simp
    rw [hsplit, List.rdropWhile_concat, List.rdropWhile_concat]
    split
    · exact ih
    · exact hsplit.symm

theorem takeWhile_append_cons {p : Char → Bool} {c : Char} (hc : ¬ p c = true)
    (l r : List Char) : (l ++ c :: r).takeWhile p = l.takeWhile p := by
  rw [List.takeWhile_append]
  split
  · next hall =>
    have hself : l.takeWhile p = l := (List.takeWhile_prefix p).eq_of_length hall
    rw [List.takeWhile_cons_of_neg hc, List.append_nil, hself]
  · rfl

variable {n : Numeral}

/-- Without an exponent the zeroes at the end of the fraction are left out. -/
theorem readFraction_plain (hlegal : n.Legal) (hexp : n.exponent = []) :
    readFraction n = n.fraction.rdropWhile (· = '0') := by
  unfold readFraction
  rw [hexp, List.append_nil]
  cases hpoint : n.point with
  | true => rfl
  | false =>
    rw [hlegal.point hpoint]
    rfl

/-- The exponent is read as a part of the fraction. -/
theorem readFraction_exponent (hlegal : n.Legal) (hpoint : n.point = true)
    (hexp : n.exponent ≠ []) :
    ∃ c rest, readFraction n = n.fraction ++ c :: rest ∧ c.isDigit = false := by
  obtain ⟨c, rest, hexp, hletter, -⟩ := hlegal.exponent.resolve_left hexp
  have hdigit := not_isDigit_of_isExponent hletter
  have hzero : ¬ decide (c = '0') = true := by
    rw [decide_eq_true_iff]
    rintro rfl
    exact absurd hdigit (by decide)
  refine ⟨c, rest.rdropWhile (· = '0'), ?_, hdigit⟩
  rw [readFraction, hpoint, if_pos rfl, hexp, rdropWhile_append_cons hzero]

/-- The zeroes that are left out. -/
theorem digitsValue_rdropWhile (base : Nat) (digits : List Char) :
    digitsValue base digits * base ^ (digits.rdropWhile (· = '0')).length =
      digitsValue base (digits.rdropWhile (· = '0')) * base ^ digits.length := by
  induction digits using List.reverseRecOn with
  | nil => rfl
  | append_singleton digits c ih =>
    rw [List.rdropWhile_concat]
    split
    · next hc =>
      have hzero : digitValue c = 0 := by
        rw [decide_eq_true_iff] at hc
        rw [hc]
        rfl
      rw [digitsValue_concat, hzero, Nat.add_zero, List.length_append, List.length_singleton,
        Nat.pow_succ, ← Nat.mul_assoc, ← ih]
      ring
    · rfl

/-! ## Values -/

/-- The integer before the point, without its sign. -/
def readWhole (n : Numeral) : Nat := if n.hex then 0 else digitsValue 10 n.whole

theorem readInteger_eq (hlegal : n.Legal) :
    readInteger n = if n.negative then -(readWhole n : Int) else readWhole n := by
  unfold readInteger readWhole
  cases hhex : n.hex with
  | true => simp
  | false =>
    have hdigits : ∀ c ∈ n.whole, c.isDigit = true := by
      have hwhole := hlegal.whole
      rw [hhex] at hwhole
      exact hwhole
    rw [digitsValue_ten hdigits]
    rfl

theorem value_neg_length (k : Nat) (m : Int) : Scaled.value m (-(k : Int)) = m / 10 ^ k := by
  unfold Scaled.value
  rw [zpow_neg, zpow_natCast]
  rfl

/-- What the sum of the parts stands for. -/
theorem value_readSum (hlegal : n.Legal) :
    Scaled.value (readSum n) (-((readFraction n).length : Int)) =
      if n.negative = true ∧ readWhole n ≠ 0 then
        -((readWhole n : ℚ) + readFractionPart n / 10 ^ (readFraction n).length)
      else (readWhole n : ℚ) + readFractionPart n / 10 ^ (readFraction n).length := by
  rw [value_neg_length, readSum, exactSum, readInteger_eq hlegal]
  generalize readWhole n = w
  generalize readFractionPart n = f
  generalize (readFraction n).length = k
  have hpow : (10 : ℚ) ^ k ≠ 0 := by positivity
  -- the sign is the one of the whole part, which 0 has not
  cases n.negative with
  | false =>
    have hnot : ¬ ((w : Int) < 0) := by omega
    simp only [Bool.false_eq_true, if_false, false_and, hnot]
    push_cast
    rw [add_div, mul_div_cancel_right₀ _ hpow]
  | true =>
    simp only [if_true, true_and]
    by_cases hw : w = 0
    · simp [hw]
    · have hneg : -(w : Int) < 0 := by omega
      rw [if_pos hneg, if_pos hw]
      push_cast
      rw [add_div, mul_div_cancel_right₀ _ hpow, neg_div]
      ring

theorem magnitude_nonneg (n : Numeral) : 0 ≤ n.magnitude := by
  unfold Numeral.magnitude
  have hbase : (0 : ℚ) ≤ n.base := Nat.cast_nonneg _
  have hexp : (0 : ℚ) ≤ (if n.hex then 2 else 10) ^ n.exponentValue := by
    apply zpow_nonneg
    cases n.hex <;> decide
  exact mul_nonneg (mul_nonneg (Nat.cast_nonneg _) (zpow_nonneg hbase _)) hexp

theorem readFraction_nonneg (n : Numeral) :
    (0 : ℚ) ≤ readFractionPart n / 10 ^ (readFraction n).length := by
  positivity

/-- The sum stands for the number: a minus sign before a zero is not seen. -/
theorem value_eq_iff (hlegal : n.Legal) :
    n.value = Scaled.value (readSum n) (-((readFraction n).length : Int)) ↔
      if n.negative = true ∧ readWhole n = 0 then n.magnitude = 0 ∧ readFractionPart n = 0
      else n.magnitude =
        (readWhole n : ℚ) + readFractionPart n / 10 ^ (readFraction n).length := by
  have hmagnitude := magnitude_nonneg n
  have hfraction := readFraction_nonneg n
  rw [value_readSum hlegal]
  unfold Numeral.value
  cases n.negative with
  | false => simp
  | true =>
    -- `-0` loses its sign, so the value is right only where it is zero
    by_cases hw : readWhole n = 0
    · simp only [if_true, true_and, hw, ne_eq, not_true_eq_false, if_false, Nat.cast_zero,
        zero_add]
      constructor
      · intro h
        have hzero : n.magnitude = 0 := by linarith
        have hpart : (readFractionPart n : ℚ) / 10 ^ (readFraction n).length = 0 := by linarith
        rw [div_eq_zero_iff, or_iff_left (by positivity)] at hpart
        exact ⟨hzero, by exact_mod_cast hpart⟩
      · rintro ⟨hzero, hpart⟩
        rw [hzero, hpart]
        simp
    · simp only [if_true, true_and, hw, ne_eq, not_false_eq_true, if_false]
      exact neg_inj

/-! ## Decimal numbers -/

/-- The digits before the point and those behind it, as numbers. -/
def wholeValue (n : Numeral) : Nat := digitsValue n.base n.whole

def fractionValue (n : Numeral) : Nat := digitsValue n.base n.fraction

section

variable (hlegal : n.Legal) (hdecimal : n.hex = false)

include hdecimal

theorem base_of_decimal : n.base = 10 := by
  unfold Numeral.base
  rw [hdecimal]
  rfl

theorem readWhole_of_decimal : readWhole n = wholeValue n := by
  rw [wholeValue, base_of_decimal hdecimal, readWhole, hdecimal]
  rfl

theorem magnitude_of_decimal : n.magnitude =
    ((wholeValue n : ℚ) + fractionValue n / 10 ^ n.fraction.length) * 10 ^ n.exponentValue := by
  have hpow : (10 : ℚ) ^ n.fraction.length ≠ 0 := by positivity
  unfold Numeral.magnitude wholeValue fractionValue
  rw [base_of_decimal hdecimal, hdecimal, digitsValue_append, if_neg Bool.false_ne_true, zpow_neg,
    zpow_natCast]
  push_cast
  rw [← div_eq_mul_inv, add_div, mul_div_cancel_right₀ _ hpow]

include hlegal

theorem fraction_isDigit : ∀ c ∈ n.fraction, c.isDigit = true := by
  have hfraction := hlegal.fraction
  rw [hdecimal] at hfraction
  exact hfraction

theorem magnitude_of_plain (hexp : n.exponent = []) : n.magnitude =
    (readWhole n : ℚ) + readFractionPart n / 10 ^ (readFraction n).length := by
  have hzero : n.exponentValue = 0 := by
    unfold Numeral.exponentValue
    rw [hexp]
  have hread := readFraction_plain hlegal hexp
  have hall : (readFraction n).takeWhile Char.isDigit = readFraction n := by
    rw [hread, List.takeWhile_eq_self_iff]
    intro c hc
    exact fraction_isDigit hlegal hdecimal c ((List.rdropWhile_prefix _ _).subset hc)
  have hvalue := digitsValue_rdropWhile 10 n.fraction
  rw [magnitude_of_decimal hdecimal, hzero, zpow_zero, mul_one, readWhole_of_decimal hdecimal,
    readFractionPart, hall, hread, fractionValue, base_of_decimal hdecimal]
  congr 1
  rw [div_eq_div_iff (by positivity) (by positivity)]
  exact_mod_cast hvalue

/-- An exponent is read as more digits of the fraction, which are missing in its value. -/
theorem readFraction_of_exponent (hpoint : n.point = true) (hexp : n.exponent ≠ []) :
    readFractionPart n = fractionValue n ∧ n.fraction.length < (readFraction n).length := by
  obtain ⟨c, rest, hread, hc⟩ := readFraction_exponent hlegal hpoint hexp
  have hall : n.fraction.takeWhile Char.isDigit = n.fraction := by
    rw [List.takeWhile_eq_self_iff]
    exact fraction_isDigit hlegal hdecimal
  have hnot : ¬ c.isDigit = true := by
    rw [hc]
    exact Bool.false_ne_true
  rw [readFractionPart, hread, takeWhile_append_cons hnot, hall, fractionValue,
    base_of_decimal hdecimal]
  refine ⟨rfl, ?_⟩
  rw [List.length_append, List.length_cons]
  omega

end

/-- A number whose exponent is moved behind its fraction keeps its value in few cases. -/
theorem moved_exponent {w f d k : Nat} {x : Int} (hf : f < 10 ^ d) (hk : d < k) :
    ((w : ℚ) + f / 10 ^ d) * 10 ^ x = w + f / 10 ^ k ↔
      w = 0 ∧ f = 0 ∨ f = 0 ∧ x = 0 ∨ w = 0 ∧ x = d - k := by
  have hten : (1 : ℚ) < 10 := by norm_num
  by_cases hf0 : f = 0
  · rw [hf0, Nat.cast_zero, zero_div, zero_div, add_zero]
    by_cases hw : w = 0
    · simp [hw]
    · have hwq : (w : ℚ) ≠ 0 := by exact_mod_cast hw
      rw [mul_eq_left₀ hwq, zpow_eq_one_iff_right₀ (by norm_num) (by norm_num)]
      simp [hw]
  · have hfq : (0 : ℚ) < f := by
      have hfpos : 0 < f := Nat.pos_of_ne_zero hf0
      exact_mod_cast hfpos
    by_cases hw : w = 0
    · have hshift : (f : ℚ) / 10 ^ d * 10 ^ x = f * 10 ^ (x - d) := by
        rw [zpow_sub₀ (by norm_num), zpow_natCast]
        ring
      have hsize : (f : ℚ) / 10 ^ k = f * 10 ^ (-(k : Int)) := by
        rw [zpow_neg, zpow_natCast]
        rfl
      rw [hw, Nat.cast_zero, zero_add, zero_add, hshift, hsize, mul_right_inj' hfq.ne',
        zpow_right_inj₀ (by norm_num) (by norm_num)]
      omega
    · have hne : ¬ (w = 0 ∧ f = 0 ∨ f = 0 ∧ x = 0 ∨ w = 0 ∧ x = d - k) := by omega
      have hone : (1 : ℚ) ≤ w := by
        have hwpos : 1 ≤ w := Nat.pos_of_ne_zero hw
        exact_mod_cast hwpos
      have hflt : (f : ℚ) / 10 ^ d < 1 := by
        rw [div_lt_one (by positivity)]
        exact_mod_cast hf
      have hfpos : (0 : ℚ) < f / 10 ^ k := by positivity
      have hless : (f : ℚ) / 10 ^ k < f / 10 ^ d := by
        have hpow : (10 : ℚ) ^ d < 10 ^ k := pow_lt_pow_right₀ hten hk
        exact div_lt_div_of_pos_left hfq (by positivity) hpow
      rw [iff_false_intro hne, iff_false]
      generalize (f : ℚ) / 10 ^ d = p at hflt hless
      generalize (f : ℚ) / 10 ^ k = q at hfpos hless
      intro heq
      rcases lt_trichotomy x 0 with hx | hx | hx
      · -- a tenth at most
        have hsmall : (10 : ℚ) ^ x ≤ 10 ^ (-1 : Int) := zpow_le_zpow_right₀ hten.le (by omega)
        have hmul : ((w : ℚ) + p) * 10 ^ x ≤ (w + p) * 10 ^ (-1 : Int) :=
          mul_le_mul_of_nonneg_left hsmall (by linarith)
        have htenth : (10 : ℚ) ^ (-1 : Int) = 1 / 10 := by norm_num
        rw [htenth] at hmul
        linarith
      · rw [hx, zpow_zero, mul_one] at heq
        linarith
      · -- ten times at least
        have hlarge : (10 : ℚ) ^ (1 : Int) ≤ 10 ^ x := zpow_le_zpow_right₀ hten.le (by omega)
        have hmul : ((w : ℚ) + p) * 10 ^ (1 : Int) ≤ (w + p) * 10 ^ x :=
          mul_le_mul_of_nonneg_left hlarge (by linarith)
        rw [zpow_one] at hmul
        linarith

theorem fractionValue_lt (hlegal : n.Legal) (hdecimal : n.hex = false) :
    fractionValue n < 10 ^ n.fraction.length := by
  rw [fractionValue, base_of_decimal hdecimal]
  exact digitsValue_lt fun c hc ↦ digitValue_lt_ten (fraction_isDigit hlegal hdecimal c hc)

/-- Which decimal numbers are read as what they are. -/
theorem decimal_iff (hlegal : n.Legal) (hdecimal : n.hex = false) (hexp : n.exponent ≠ []) :
    n.magnitude = (readWhole n : ℚ) + readFractionPart n / 10 ^ (readFraction n).length ↔
      wholeValue n = 0 ∧ fractionValue n = 0 ∨ fractionValue n = 0 ∧ n.exponentValue = 0 ∨
        wholeValue n = 0 ∧
          n.exponentValue = n.fraction.length - (readFraction n).length := by
  rw [magnitude_of_decimal hdecimal, readWhole_of_decimal hdecimal]
  -- the exponent is read as digits of the fraction, or not at all
  cases hpoint : n.point with
  | true =>
    obtain ⟨hpart, hlength⟩ := readFraction_of_exponent hlegal hdecimal hpoint hexp
    rw [hpart]
    exact moved_exponent (fractionValue_lt hlegal hdecimal) hlength
  | false =>
    have hread : readFraction n = [] := by
      rw [readFraction, hpoint]
      rfl
    have hpart : readFractionPart n = 0 := by
      rw [readFractionPart, hread]
      rfl
    have hfraction : fractionValue n = 0 := by
      rw [fractionValue, hlegal.point hpoint]
      rfl
    rw [hpart, hread, hfraction, hlegal.point hpoint]
    simp only [List.length_nil, Nat.cast_zero, pow_zero, div_one, add_zero, sub_self, true_and,
      and_true]
    by_cases hw : wholeValue n = 0
    · simp [hw]
    · have hwq : (wholeValue n : ℚ) ≠ 0 := by exact_mod_cast hw
      rw [mul_eq_left₀ hwq, zpow_eq_one_iff_right₀ (by norm_num) (by norm_num)]
      simp [hw]

/-! ## Hexadecimal numbers -/

section

variable (hlegal : n.Legal) (hhex : n.hex = true)

include hlegal hhex

/-- The digits of the fraction that count, and how many characters are read of it. -/
theorem hex_core (hpoint : n.point = true) : ∃ core,
    (∀ c ∈ core, isHexDigit c = true) ∧
      readFractionPart n = digitsValue 10 (core.takeWhile Char.isDigit) ∧
      n.magnitude = digitsValue 16 (n.whole ++ core) * 16 ^ (-(core.length : ℤ)) *
        2 ^ n.exponentValue ∧
      (core.length < (readFraction n).length ∨
        core.length = (readFraction n).length ∧ core.getLast? ≠ some '0') := by
  have hdigits : ∀ c ∈ n.fraction, isHexDigit c = true := by
    have hfraction := hlegal.fraction
    rw [hhex] at hfraction
    exact hfraction
  have hbase : n.base = 16 := by
    unfold Numeral.base
    rw [hhex]
    rfl
  have hmagnitude : n.magnitude = digitsValue 16 (n.whole ++ n.fraction) *
      16 ^ (-(n.fraction.length : ℤ)) * 2 ^ n.exponentValue := by
    unfold Numeral.magnitude
    rw [hbase, hhex, if_pos rfl]
    rfl
  by_cases hexp : n.exponent = []
  · -- the zeros at the end are cut off, which changes nothing of the value
    have hread := readFraction_plain hlegal hexp
    refine ⟨readFraction n, ?_, rfl, ?_, .inr ⟨rfl, ?_⟩⟩
    · rw [hread]
      exact fun c hc ↦ hdigits c ((List.rdropWhile_prefix _ _).subset hc)
    · have hzeroes := digitsValue_rdropWhile 16 n.fraction
      rw [← hread] at hzeroes
      have hvalue : digitsValue 16 (n.whole ++ n.fraction) * 16 ^ (readFraction n).length =
          digitsValue 16 (n.whole ++ readFraction n) * 16 ^ n.fraction.length := by
        rw [digitsValue_append, digitsValue_append, Nat.add_mul, Nat.add_mul, hzeroes]
        ring
      rw [hmagnitude]
      congr 1
      rw [zpow_neg, zpow_neg, zpow_natCast, zpow_natCast, ← div_eq_mul_inv, ← div_eq_mul_inv,
        div_eq_div_iff (by positivity) (by positivity)]
      exact_mod_cast hvalue
    · intro hlast
      obtain ⟨front, hfront⟩ := List.getLast?_eq_some_iff.mp hlast
      have hself := List.rdropWhile_idempotent (· = '0') n.fraction
      rw [← hread, hfront, List.rdropWhile_concat_pos _ _ _ (by decide)] at hself
      have hlength := (List.rdropWhile_prefix (fun c : Char ↦ decide (c = '0')) front).length_le
      rw [hself, List.length_append, List.length_singleton] at hlength
      omega
  · -- the letter of the exponent ends the digits, but is counted with them
    obtain ⟨c, rest, hread, hc⟩ := readFraction_exponent hlegal hpoint hexp
    have hnot : ¬ c.isDigit = true := by
      rw [hc]
      exact Bool.false_ne_true
    refine ⟨n.fraction, hdigits, ?_, hmagnitude, .inl ?_⟩
    · rw [readFractionPart, hread, takeWhile_append_cons hnot]
    · rw [hread, List.length_append, List.length_cons]
      omega

/-- A hexadecimal number is read as what it is only if it is zero. -/
theorem hex_iff : n.magnitude =
    (readWhole n : ℚ) + readFractionPart n / 10 ^ (readFraction n).length ↔
      n.magnitude = 0 ∧ readFractionPart n = 0 := by
  have hwhole : readWhole n = 0 := by
    rw [readWhole, hhex]
    rfl
  rw [hwhole, Nat.cast_zero, zero_add]
  constructor
  · intro heq
    by_cases hpart : readFractionPart n = 0
    · rw [hpart, Nat.cast_zero, zero_div] at heq
      exact ⟨heq, hpart⟩
    exfalso
    have hpoint : n.point = true := by
      by_contra hpoint
      rw [Bool.not_eq_true] at hpoint
      apply hpart
      rw [readFractionPart, readFraction, hpoint]
      rfl
    obtain ⟨core, hcore, hread, hmagnitude, hlength⟩ := hex_core hlegal hhex hpoint
    rw [hmagnitude] at heq
    rw [hread] at heq hpart
    generalize (readFraction n).length = k at heq hlength
    -- both sides without denominators
    have hsixteen : (16 : ℚ) ^ (-(core.length : ℤ)) = 2 ^ (-(4 * core.length : ℤ)) := by
      have hpow : (16 : ℚ) = 2 ^ (4 : ℤ) := by norm_num
      rw [hpow, ← zpow_mul]
      congr 1
      ring
    have hten : (10 : ℚ) ^ k = 5 ^ k * 2 ^ (k : ℤ) := by
      rw [zpow_natCast, ← mul_pow]
      norm_num
    have hequation : (digitsValue 16 (n.whole ++ core) : ℚ) * 5 ^ k *
        2 ^ (n.exponentValue - 4 * core.length + k) =
          digitsValue 10 (core.takeWhile Char.isDigit) := by
      rw [eq_div_iff (by positivity), hten, hsixteen] at heq
      rw [← heq, zpow_add₀ (by norm_num), sub_eq_add_neg, zpow_add₀ (by norm_num)]
      ring
    generalize n.exponentValue - 4 * core.length + k = y at hequation
    have hcontra := no_equation hcore n.whole k
    cases y with
    | ofNat a =>
      apply hcontra a 0 (Nat.pos_of_ne_zero hpart) hlength
      rw [Nat.pow_zero, Nat.mul_one]
      rw [Int.ofNat_eq_natCast, zpow_natCast] at hequation
      exact_mod_cast hequation
    | negSucc b =>
      apply hcontra 0 (b + 1) (Nat.pos_of_ne_zero hpart) hlength
      rw [Nat.pow_zero, Nat.mul_one]
      rw [zpow_negSucc, ← div_eq_mul_inv, div_eq_iff (by positivity)] at hequation
      exact_mod_cast hequation
  · rintro ⟨hzero, hpart⟩
    rw [hzero, hpart, Nat.cast_zero, zero_div]

end

/-! ## Which numbers are read exactly -/

theorem base_pos (n : Numeral) : 0 < n.base := by
  unfold Numeral.base
  split <;> decide

theorem magnitude_eq_zero : n.magnitude = 0 ↔ wholeValue n = 0 ∧ fractionValue n = 0 := by
  have hbase : (n.base : ℚ) ≠ 0 := by exact_mod_cast (base_pos n).ne'
  have hexp : ((if n.hex then 2 else 10 : ℚ)) ^ n.exponentValue ≠ 0 := by
    apply zpow_ne_zero
    split <;> norm_num
  unfold Numeral.magnitude
  rw [mul_eq_zero, or_iff_left hexp, mul_eq_zero, or_iff_left (zpow_ne_zero _ hbase),
    Nat.cast_eq_zero, digitsValue_append, Nat.add_eq_zero_iff, Nat.mul_eq_zero,
    or_iff_left (Nat.pow_pos (base_pos n)).ne']
  rfl

/-- All digits that are read of the fraction are digits of it. -/
theorem takeWhile_readFraction (hlegal : n.Legal) :
    ∀ c ∈ (readFraction n).takeWhile Char.isDigit, c ∈ n.fraction := by
  intro c hc
  by_cases hexp : n.exponent = []
  · have hmem := (List.takeWhile_prefix _).subset hc
    rw [readFraction_plain hlegal hexp] at hmem
    exact (List.rdropWhile_prefix _ _).subset hmem
  · cases hpoint : n.point with
    | true =>
      obtain ⟨letter, rest, hread, hletter⟩ := readFraction_exponent hlegal hpoint hexp
      have hnot : ¬ letter.isDigit = true := by
        rw [hletter]
        exact Bool.false_ne_true
      rw [hread, takeWhile_append_cons hnot] at hc
      exact (List.takeWhile_prefix _).subset hc
    | false =>
      rw [readFraction, hpoint] at hc
      exact absurd hc List.not_mem_nil

theorem readFractionPart_eq_zero (hlegal : n.Legal) (hzero : fractionValue n = 0) :
    readFractionPart n = 0 := by
  have hdigit : ∀ c ∈ n.fraction, digitValue c = 0 → c = '0' := by
    intro c hc hvalue
    have hlegal := hlegal.fraction c hc
    cases hd : c.isDigit with
    | true => exact (digitValue_eq_zero hd).mp hvalue
    | false =>
      have hhex : isHexDigit c = true := by
        cases hhex : n.hex with
        | true =>
          rw [hhex] at hlegal
          exact hlegal
        | false =>
          rw [hhex] at hlegal
          exact absurd (hd.symm.trans hlegal) Bool.false_ne_true
      have hten := (isHexDigit_letter hhex hd).1
      omega
  have hzeroes := (digitsValue_eq_zero (base_pos n) hdigit).mp hzero
  have hread : ∀ c ∈ (readFraction n).takeWhile Char.isDigit, c = '0' :=
    fun c hc ↦ hzeroes c (takeWhile_readFraction hlegal c hc)
  exact (digitsValue_eq_zero (by decide) fun c hc _ ↦ hread c hc).mpr hread

/-- The parts stand for the number: the exponent and the letters are not read for what they are,
and neither is a minus sign before a zero. -/
def ValueTold (n : Numeral) : Prop :=
  if n.hex = true then wholeValue n = 0 ∧ fractionValue n = 0
  else if n.exponent = [] then ¬ (n.negative = true ∧ wholeValue n = 0 ∧ fractionValue n ≠ 0)
  else
    wholeValue n = 0 ∧ fractionValue n = 0 ∨ fractionValue n = 0 ∧ n.exponentValue = 0 ∨
      n.negative = false ∧ wholeValue n = 0 ∧
        n.exponentValue = n.fraction.length - (readFraction n).length

theorem value_iff_told (hlegal : n.Legal) :
    n.value = Scaled.value (readSum n) (-((readFraction n).length : Int)) ↔ ValueTold n := by
  have hzero : n.magnitude = 0 ∧ readFractionPart n = 0 ↔
      wholeValue n = 0 ∧ fractionValue n = 0 := by
    rw [magnitude_eq_zero]
    constructor
    · exact And.left
    · exact fun h ↦ ⟨h, readFractionPart_eq_zero hlegal h.2⟩
  unfold ValueTold
  rw [value_eq_iff hlegal, hzero]
  cases hhex : n.hex with
  | true => rw [if_pos rfl, hex_iff hlegal hhex, hzero, ite_self]
  | false =>
    rw [if_neg Bool.false_ne_true, readWhole_of_decimal hhex]
    by_cases hexp : n.exponent = []
    · -- the parts are the number, but a minus sign before `0.` is lost
      have hplain := magnitude_of_plain hlegal hhex hexp
      rw [readWhole_of_decimal hhex] at hplain
      rw [if_pos hexp]
      by_cases hsign : n.negative = true ∧ wholeValue n = 0
      · rw [if_pos hsign]
        constructor
        · exact fun h hnot ↦ hnot.2.2 h.2
        · intro h
          by_contra hnot
          exact h ⟨hsign.1, hsign.2, fun hfraction ↦ hnot ⟨hsign.2, hfraction⟩⟩
      · rw [if_neg hsign]
        exact ⟨fun _ h ↦ hsign ⟨h.1, h.2.1⟩, fun _ ↦ hplain⟩
    · -- the exponent is read behind the fraction, as more places of it
      have hmoved := decimal_iff hlegal hhex hexp
      rw [readWhole_of_decimal hhex] at hmoved
      rw [if_neg hexp]
      by_cases hsign : n.negative = true ∧ wholeValue n = 0
      · rw [if_pos hsign]
        constructor
        · exact .inl
        · rintro (h | h | h)
          · exact h
          · exact ⟨hsign.2, h.1⟩
          · exact absurd (hsign.1.symm.trans h.1) (by decide)
      · rw [if_neg hsign, hmoved]
        have hpositive : wholeValue n = 0 → n.negative = false := by
          intro hwhole
          by_contra hneg
          exact hsign ⟨Bool.eq_true_of_not_eq_false hneg, hwhole⟩
        constructor
        · rintro (h | h | h)
          · exact .inl h
          · exact .inr (.inl h)
          · exact .inr (.inr ⟨hpositive h.1, h⟩)
        · rintro (h | h | h)
          · exact .inl h
          · exact .inr (.inl h)
          · exact .inr (.inr h.2)

/-- The condition: the parts stand for the number, and their sum does not leave the range of an
`int64_t`, or downwards that of an `int32_t`. -/
def BiosfTold (n : Numeral) : Prop :=
  ValueTold n ∧ -2 ^ 31 ≤ readSum n ∧ readSum n < 2 ^ 63

theorem stobiosf_exact_iff {string : List Char} {integer scale : Int}
    (h : stobiosf string = some (integer, scale)) :
    BiosfExact string integer scale ↔
      ∃ n, scan string = some (.number n, []) ∧ BiosfTold n := by
  obtain ⟨n, integerPart, haccepted, hexact⟩ := exact_iff_sum h
  obtain ⟨-, hlegal, -⟩ := scan_number_nil haccepted.scan
  rw [hexact, value_iff_told hlegal]
  constructor
  · exact fun htold ↦ ⟨n, haccepted.scan, htold⟩
  · rintro ⟨m, hscan, htold⟩
    cases haccepted.scan.symm.trans hscan
    exact htold

theorem stobiosf_exact_iff_negative :
    BiosfExact "-12134.013".toList (-12134013) (-3) ↔
      ∃ n, scan "-12134.013".toList = some (.number n, []) ∧ BiosfTold n :=
  stobiosf_exact_iff (by decide +kernel)

/-- The sign of `-0.5` is that of its integer part, an exponent is cut off, a hexadecimal number is
read up to its `x`, and a sum below the range of an `int32_t` wraps around. -/
theorem negative_half_is_positive : stobiosf "-0.5".toList = some (5, -1) ∧
    stobiosf "1e3".toList = some (1, 0) ∧ stobiosf "0x10".toList = some (0, 0) ∧
    stobiosf "-2147483648.5".toList = some (-5, -1) ∧
    ¬ BiosfExact "-0.5".toList 5 (-1) := by
  refine ⟨by decide +kernel, by decide +kernel, by decide +kernel, by decide +kernel, fun h ↦ ?_⟩
  obtain ⟨n, pos, hstod, hvalue⟩ := h.value
  have hhalf : stod "-0.5".toList = .ok (.number ⟨true, false, ['0'], true, ['5'], []⟩) 4 := by
    decide +kernel
  cases hhalf.symm.trans hstod
  revert hvalue
  decide +kernel

end FtyRest.Shared
