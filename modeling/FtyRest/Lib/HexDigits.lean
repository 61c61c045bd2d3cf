import FtyRest.Lib.Strtod
import Mathlib.Algebra.Ring.Parity
import Mathlib.Data.List.Induction
import Mathlib.Data.Nat.Factorization.Basic
import Mathlib.Data.Nat.Prime.Basic

/-!
# Digits

The values of digits, and the digits of a hexadecimal fraction that are taken for decimal ones: they
never have the value of the fraction.
-/

namespace Strtod

/-! ## Values of digits -/

theorem digitsValue_foldl (base : Nat) (digits : List Char) (n : Nat) :
    digits.foldl (fun n c ↦ base * n + digitValue c) n =
      n * base ^ digits.length + digitsValue base digits := by
  unfold digitsValue
  induction digits generalizing n with
  | nil => simp
  | cons c digits ih =>
    rw [List.foldl_cons, List.foldl_cons, ih, ih (base * 0 + _), List.length_cons, Nat.pow_succ]
    ring

theorem digitsValue_append (base : Nat) (l m : List Char) : digitsValue base (l ++ m) =
    digitsValue base l * base ^ m.length + digitsValue base m := by
  have happend := digitsValue_foldl base m (digitsValue base l)
  rw [← happend]
  unfold digitsValue
  rw [List.foldl_append]

theorem digitsValue_cons (base : Nat) (c : Char) (digits : List Char) :
    digitsValue base (c :: digits) =
      digitValue c * base ^ digits.length + digitsValue base digits := by
  have happend := digitsValue_append base [c] digits
  have hone : digitsValue base [c] = digitValue c := by simp [digitsValue]
  rwa [hone] at happend

theorem digitsValue_concat (base : Nat) (digits : List Char) (c : Char) :
    digitsValue base (digits ++ [c]) = digitsValue base digits * base + digitValue c := by
  have happend := digitsValue_append base digits [c]
  have hone : digitsValue base [c] = digitValue c := by simp [digitsValue]
  rwa [hone, List.length_singleton, Nat.pow_one] at happend

theorem digitValue_of_isDigit {c : Char} (h : c.isDigit = true) : digitValue c = c.toNat - 48 :=
  if_pos h

theorem digitsValue_ten {digits : List Char} (h : ∀ c ∈ digits, c.isDigit = true) :
    digitsValue 10 digits = Nat.ofDigitChars 10 digits 0 := by
  induction digits using List.reverseRecOn with
  | nil => rfl
  | append_singleton digits c ih =>
    have hc := digitValue_of_isDigit (h c (by simp))
    rw [digitsValue_concat, ih fun d hd ↦ h d (by simp [hd]), Nat.ofDigitChars_append,
      Nat.ofDigitChars_cons, Nat.ofDigitChars_nil, hc, Nat.mul_comm]
    rfl

theorem digitValue_lt_ten {c : Char} (h : c.isDigit = true) : digitValue c < 10 := by
  have hrange := Char.isDigit_iff_toNat.mp h
  have hzero : '0'.toNat = 48 := rfl
  have hnine : '9'.toNat = 57 := rfl
  rw [digitValue_of_isDigit h]
  omega

theorem digitValue_eq_zero {c : Char} (h : c.isDigit = true) : digitValue c = 0 ↔ c = '0' := by
  have hrange := Char.isDigit_iff_toNat.mp h
  have hzero : '0'.toNat = 48 := rfl
  rw [digitValue_of_isDigit h]
  constructor
  · intro hc
    apply Char.toNat_inj.mp
    omega
  · rintro rfl
    rfl

/-- A letter of a hexadecimal number stands for at least ten. -/
theorem isHexDigit_letter {c : Char} (h : isHexDigit c = true) (hdigit : c.isDigit = false) :
    10 ≤ digitValue c ∧ digitValue c < 16 := by
  unfold isHexDigit at h
  rw [hdigit, Bool.false_or, List.contains_iff_mem] at h
  unfold digitValue
  rw [if_neg (by rw [hdigit]; exact Bool.false_ne_true)]
  generalize c.toLower = letter at h
  have hletters : "abcdef".toList = ['a', 'b', 'c', 'd', 'e', 'f'] := rfl
  rw [hletters] at h
  simp only [List.mem_cons, List.not_mem_nil, or_false] at h
  rcases h with rfl | rfl | rfl | rfl | rfl | rfl <;> decide

theorem digitValue_lt_sixteen {c : Char} (h : isHexDigit c = true) : digitValue c < 16 := by
  cases hdigit : c.isDigit with
  | true =>
    have hlt := digitValue_lt_ten hdigit
    omega
  | false => exact (isHexDigit_letter h hdigit).2

theorem digitsValue_lt {base : Nat} {digits : List Char}
    (h : ∀ c ∈ digits, digitValue c < base) : digitsValue base digits < base ^ digits.length := by
  induction digits using List.reverseRecOn with
  | nil => simp [digitsValue]
  | append_singleton digits c ih =>
    have hc := h c (by simp)
    have hdigits := ih fun d hd ↦ h d (by simp [hd])
    rw [digitsValue_concat, List.length_append, List.length_singleton, Nat.pow_succ]
    calc digitsValue base digits * base + digitValue c
        < digitsValue base digits * base + base := by omega
      _ = (digitsValue base digits + 1) * base := by ring
      _ ≤ base ^ digits.length * base := Nat.mul_le_mul_right base hdigits

/-- The same digits have a larger value with a larger base. -/
theorem digitsValue_mono {base base' : Nat} (h : base ≤ base') (digits : List Char) :
    digitsValue base digits ≤ digitsValue base' digits := by
  induction digits using List.reverseRecOn with
  | nil => exact Nat.le_refl _
  | append_singleton digits c ih =>
    rw [digitsValue_concat, digitsValue_concat]
    have hmul := Nat.mul_le_mul ih h
    omega

theorem digitsValue_eq_zero {base : Nat} (hbase : 0 < base) {digits : List Char}
    (h : ∀ c ∈ digits, digitValue c = 0 → c = '0') :
    digitsValue base digits = 0 ↔ ∀ c ∈ digits, c = '0' := by
  induction digits with
  | nil => simp [digitsValue]
  | cons c digits ih =>
    rw [digitsValue_cons, Nat.add_eq_zero_iff, ih fun d hd ↦ h d (List.mem_cons_of_mem c hd),
      List.forall_mem_cons, Nat.mul_eq_zero, or_iff_left (Nat.pow_pos hbase).ne']
    constructor
    · exact fun hzero ↦ ⟨h c List.mem_cons_self hzero.1, hzero.2⟩
    · rintro ⟨rfl, hdigits⟩
      exact ⟨rfl, hdigits⟩

/-! ## Hexadecimal digits taken for decimal ones -/

/-- With powers of two put aside, what is left of `m` is small. -/
theorem odd_part {m v k a b : Nat} (hm : m ≠ 0)
    (h : m * 5 ^ k * 2 ^ a = v * 2 ^ b) :
    ∃ c r, m = 2 ^ c * r ∧ 0 < r ∧ r * 5 ^ k ∣ v := by
  obtain ⟨c, r, hodd, rfl⟩ := Nat.exists_eq_two_pow_mul_odd hm
  refine ⟨c, r, rfl, hodd.pos, ?_⟩
  have hdvd : r * 5 ^ k ∣ v * 2 ^ b := ⟨2 ^ c * 2 ^ a, by rw [← h]; ring⟩
  have hcoprime : Nat.Coprime (r * 5 ^ k) (2 ^ b) := by
    apply Nat.Coprime.pow_right
    exact (hodd.mul (Odd.pow (by decide))).coprime_two_right
  exact hcoprime.dvd_of_dvd_mul_right hdvd

/-- A letter behind the digits. -/
theorem no_equation_of_tail {h d t tail : Nat} {v k a b : Nat} (hv : 0 < v) (hd : v ≤ d)
    (htail : tail < 16 ^ t) (hne : tail ≠ 0) :
    (h * 16 ^ t + d * 16 ^ t + tail) * 5 ^ k * 2 ^ a ≠ v * 2 ^ b := by
  intro heq
  obtain ⟨c, r, hm, hr, hdvd⟩ := odd_part (by omega) heq
  have hle : r * 5 ^ k ≤ v := Nat.le_of_dvd hv hdvd
  have hrle : r ≤ r * 5 ^ k := Nat.le_mul_of_pos_right r (Nat.pow_pos (by decide))
  -- the powers of two are those of the tail
  have hc : 2 ^ c < 16 ^ t := by
    by_contra hnot
    have hpow : (16 : Nat) ^ t = 2 ^ (4 * t) := by rw [Nat.pow_mul]
    have hexp : 4 * t ≤ c := by
      rw [not_lt, hpow] at hnot
      exact (Nat.pow_le_pow_iff_right (by decide)).mp hnot
    have hsixteen : 16 ^ t ∣ (h * 16 ^ t + d * 16 ^ t) + tail := by
      rw [hm, hpow]
      exact Dvd.dvd.mul_right (Nat.pow_dvd_pow 2 hexp) r
    have hmul : 16 ^ t ∣ h * 16 ^ t + d * 16 ^ t :=
      Nat.dvd_add (Nat.dvd_mul_left _ _) (Nat.dvd_mul_left _ _)
    have hlast := (Nat.dvd_add_right hmul).mp hsixteen
    exact absurd (Nat.le_of_dvd (by omega) hlast) (by omega)
  have hlarge : d * 16 ^ t < 2 ^ c * r := by
    rw [← hm]
    omega
  have hsmall : 2 ^ c * r ≤ 16 ^ t * r := Nat.mul_le_mul_right r hc.le
  have hrd : r ≤ d := by omega
  have hmul : 16 ^ t * r ≤ 16 ^ t * d := Nat.mul_le_mul_left _ hrd
  rw [Nat.mul_comm d] at hlarge
  omega

/-- Only digits: those that are zeros at the end are taken away one by one. -/
theorem no_equation_of_digits {digits : List Char} (hdigits : ∀ c ∈ digits, c.isDigit = true)
    (h k a b : Nat) (hv : 0 < digitsValue 10 digits)
    (hk : digits.length < k ∨ digits.length = k ∧ digits.getLast? ≠ some '0') :
    (h * 16 ^ digits.length + digitsValue 16 digits) * 5 ^ k * 2 ^ a ≠
      digitsValue 10 digits * 2 ^ b := by
  induction digits using List.reverseRecOn generalizing h k a b with
  | nil => exact absurd hv (by simp [digitsValue])
  | append_singleton digits c ih =>
    have hc := hdigits c (by simp)
    have hlt := digitValue_lt_ten hc
    rw [digitsValue_concat] at hv
    rw [digitsValue_concat, digitsValue_concat, List.length_append, List.length_singleton]
    rw [List.length_append, List.length_singleton, List.getLast?_concat] at hk
    intro heq
    by_cases hzero : c = '0'
    · rw [(digitValue_eq_zero hc).mpr hzero, Nat.add_zero] at hv heq
      rw [Nat.add_zero, Nat.pow_succ] at heq
      have hlong : digits.length + 1 < k := hk.resolve_right fun hlast ↦ hlast.2 (by rw [hzero])
      obtain ⟨j, rfl⟩ : ∃ j, k = j + 1 := ⟨k - 1, by omega⟩
      apply ih (fun d hd ↦ hdigits d (by simp [hd])) h j (a + 4) (b + 1) (by omega)
        (.inl (by omega))
      have hfive : 5 * ((h * 16 ^ digits.length + digitsValue 16 digits) * 5 ^ j * 2 ^ (a + 4)) =
          5 * (digitsValue 10 digits * 2 ^ (b + 1)) := by
        calc 5 * ((h * 16 ^ digits.length + digitsValue 16 digits) * 5 ^ j * 2 ^ (a + 4))
            = (h * (16 ^ digits.length * 16) + digitsValue 16 digits * 16) * 5 ^ (j + 1) *
                2 ^ a := by ring
          _ = digitsValue 10 digits * 10 * 2 ^ b := heq
          _ = 5 * (digitsValue 10 digits * 2 ^ (b + 1)) := by ring
      exact Nat.eq_of_mul_eq_mul_left (by decide) hfive
    · have hpos : 0 < digitValue c :=
        Nat.pos_of_ne_zero fun h0 ↦ hzero ((digitValue_eq_zero hc).mp h0)
      have hmono := digitsValue_mono (by decide : 10 ≤ 16) digits
      have hsum : h * 16 ^ (digits.length + 1) + (digitsValue 16 digits * 16 + digitValue c) =
          16 * (h * 16 ^ digits.length + digitsValue 16 digits) + digitValue c := by ring
      rw [hsum] at heq
      have hdigit : digitsValue 16 digits ≤ h * 16 ^ digits.length + digitsValue 16 digits :=
        Nat.le_add_left _ _
      generalize h * 16 ^ digits.length + digitsValue 16 digits = q at heq hdigit
      obtain ⟨e, r, hm, hr, hdvd⟩ := odd_part (by omega) heq
      have hle := Nat.le_of_dvd hv hdvd
      have he : e ≤ 3 := by
        by_contra hnot
        have hdvd16 : 2 ^ 4 ∣ 16 * q + digitValue c := by
          rw [hm]
          exact Dvd.dvd.mul_right (Nat.pow_dvd_pow 2 (by omega)) r
        omega
      have height : 2 ^ e ≤ 2 ^ 3 := Nat.pow_le_pow_right (by decide) he
      have hmle : 2 ^ e * r ≤ 2 ^ 3 * r := Nat.mul_le_mul_right r height
      have hpow : r * 5 ^ k ≤ r * 8 := by omega
      have hfive : 5 ^ k ≤ 8 := Nat.le_of_mul_le_mul_left hpow hr
      have hone : k ≤ 1 := by
        by_contra hnot
        have htwo : 5 ^ 2 ≤ 5 ^ k := Nat.pow_le_pow_right (by decide) (by omega)
        omega
      -- one digit is left, which is five
      have hlength : digits.length = 0 := by omega
      obtain rfl := List.length_eq_zero_iff.mp hlength
      obtain rfl : k = 1 := by
        rw [hlength] at hk
        omega
      have hten : digitsValue 10 [] * 10 + digitValue c = digitValue c := by simp [digitsValue]
      rw [hten] at hdvd
      obtain ⟨l, hl⟩ := hdvd
      have hrl : r * 5 ^ 1 * l = 5 * (r * l) := by ring
      have hproduct : r * l = 1 := by omega
      have hrone : r = 1 := Nat.eq_one_of_mul_eq_one_right hproduct
      rw [hrone, Nat.mul_one] at hm
      have hcases : e = 0 ∨ e = 1 ∨ e = 2 ∨ e = 3 := by omega
      rcases hcases with rfl | rfl | rfl | rfl <;> omega

/-- The decimal digits at the beginning of a hexadecimal fraction never have its value. -/
theorem no_equation {core : List Char} (hcore : ∀ c ∈ core, isHexDigit c = true)
    (whole : List Char) (k a b : Nat)
    (hv : 0 < digitsValue 10 (core.takeWhile Char.isDigit))
    (hk : core.length < k ∨ core.length = k ∧ core.getLast? ≠ some '0') :
    digitsValue 16 (whole ++ core) * 5 ^ k * 2 ^ a ≠
      digitsValue 10 (core.takeWhile Char.isDigit) * 2 ^ b := by
  have hdigits : ∀ c ∈ core.takeWhile Char.isDigit, c.isDigit = true :=
    fun c hc ↦ List.mem_takeWhile_imp hc
  cases htail : core.dropWhile Char.isDigit with
  | nil =>
    -- only decimal digits, whose value differs in the two bases
    have hall : core.takeWhile Char.isDigit = core := by
      rw [List.takeWhile_eq_self_iff]
      exact List.dropWhile_eq_nil_iff.mp htail
    rw [hall] at hv hdigits ⊢
    rw [digitsValue_append]
    exact no_equation_of_digits hdigits _ k a b hv hk
  | cons letter tail =>
    -- the letter and what is behind it are missing from the decimal value
    have hsplit : core = core.takeWhile Char.isDigit ++ letter :: tail := by
      rw [← htail, List.takeWhile_append_dropWhile]
    have hne : core.dropWhile Char.isDigit ≠ [] := by simp [htail]
    have hletter : letter.isDigit = false := by
      have hhead := List.head_dropWhile_not Char.isDigit hne
      simp only [htail, List.head_cons] at hhead
      exact hhead
    have hhex : ∀ c ∈ letter :: tail, isHexDigit c = true := by
      intro c hc
      apply hcore
      rw [hsplit]
      exact List.mem_append_right _ hc
    have hlt : digitsValue 16 (letter :: tail) < 16 ^ (letter :: tail).length :=
      digitsValue_lt fun c hc ↦ digitValue_lt_sixteen (hhex c hc)
    have hpos : digitsValue 16 (letter :: tail) ≠ 0 := by
      have hten := (isHexDigit_letter (hhex letter List.mem_cons_self) hletter).1
      have hpow : 0 < 16 ^ tail.length := Nat.pow_pos (by decide)
      have hmul := Nat.mul_le_mul hten hpow
      rw [digitsValue_cons]
      omega
    have hvalue : digitsValue 16 (whole ++ core) =
        digitsValue 16 whole * 16 ^ (core.takeWhile Char.isDigit).length *
            16 ^ (letter :: tail).length +
          digitsValue 16 (core.takeWhile Char.isDigit) * 16 ^ (letter :: tail).length +
          digitsValue 16 (letter :: tail) := by
      conv_lhs => rw [hsplit]
      rw [digitsValue_append, digitsValue_append, List.length_append, Nat.pow_add]
      ring
    rw [hvalue]
    exact no_equation_of_tail hv (digitsValue_mono (by decide) _) hlt hpos

end Strtod
