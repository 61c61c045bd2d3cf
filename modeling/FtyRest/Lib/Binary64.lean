import FtyRest.Lib.JsonText
import FtyRest.Lib.Strtod
import Mathlib.Data.Int.Log
import Mathlib.Data.Rat.Floor
import Mathlib.Tactic.Linarith
import Mathlib.Tactic.Positivity

/-!
# Doubles

The binary format of 64 bits: which value is nearest to a number, the operations on values, and
the conversions from and to texts.
-/

namespace Binary64

/-- A value that is finite is told by its sign, as there are two zeros, and its magnitude. -/
inductive Double where
  | nan
  | infinity (negative : Bool)
  | finite (negative : Bool) (magnitude : ℚ)
deriving DecidableEq, Repr

def signed (negative : Bool) (magnitude : ℚ) : ℚ := if negative then -magnitude else magnitude

/-! ## Rounding -/

/-- The nearest integer, and of two the one that is even. -/
def roundEven (x : ℚ) : ℤ :=
  if x - ⌊x⌋ < 1 / 2 then ⌊x⌋
  else if 1 / 2 < x - ⌊x⌋ then ⌊x⌋ + 1
  else ⌊x⌋ + ⌊x⌋ % 2

/-- The exponent of the last bit of a value of this size. -/
def lastBit (q : ℚ) : ℤ := max (Int.log 2 q - 52) (-1074)

def rounded (q : ℚ) : ℚ := roundEven (q / 2 ^ lastBit q) * 2 ^ lastBit q

/-- From here on a number is rounded to an infinity. -/
def limit : ℚ := 2 ^ 1024 - 2 ^ 970

def ofRat (negative : Bool) (magnitude : ℚ) : Double :=
  if limit ≤ magnitude then .infinity negative else .finite negative (rounded magnitude)

/-! ## Operations -/

namespace Double

def sub : Double → Double → Double
  | .nan, _ | _, .nan => .nan
  | .infinity s, .infinity t => if s = t then .nan else .infinity s
  | .infinity s, .finite _ _ => .infinity s
  | .finite _ _, .infinity t => .infinity !t
  | .finite s a, .finite t b =>
      let v := signed s a - signed t b
      -- nothing but the difference of two zeros is a negative zero
      if v = 0 then .finite (s && !t) 0 else ofRat (v < 0) |v|

def mul : Double → Double → Double
  | .nan, _ | _, .nan => .nan
  | .infinity s, .infinity t => .infinity (s != t)
  | .infinity s, .finite t b => if b = 0 then .nan else .infinity (s != t)
  | .finite s a, .infinity t => if a = 0 then .nan else .infinity (s != t)
  | .finite s a, .finite t b => ofRat (s != t) (a * b)

def div : Double → Double → Double
  | .nan, _ | _, .nan => .nan
  | .infinity _, .infinity _ => .nan
  | .infinity s, .finite t _ => .infinity (s != t)
  | .finite s _, .infinity t => .finite (s != t) 0
  | .finite s a, .finite t b =>
      if b = 0 then if a = 0 then .nan else .infinity (s != t)
      else ofRat (s != t) (a / b)

/-- The nearest whole number, and of two the one that is farther from zero. -/
def round : Double → Double
  | .finite s a => .finite s ⌊a + 1 / 2⌋
  | x => x

def isNan (x : Double) : Bool := x = .nan

/-- `x == 0` -/
def isZero : Double → Bool
  | .finite _ a => a = 0
  | _ => false

/-! ## Texts -/

/-- Six digits, with zeros in front. -/
def sixDigits (n : Nat) : List Char :=
  [100000, 10000, 1000, 100, 10, 1].map fun d ↦ Nat.digitChar (n / d % 10)

/-- The conversion with `%f`: the millionths, rounded. -/
def decimal (magnitude : ℚ) : List Char :=
  let millionths := (roundEven (magnitude * 1000000)).toNat
  Nat.toDigits 10 (millionths / 1000000) ++ '.' :: sixDigits millionths

/-- `std::to_string` -/
def toText : Double → String
  | .nan => "nan"
  | .infinity negative => if negative then "-inf" else "inf"
  | .finite negative magnitude =>
      .ofList (if negative then '-' :: decimal magnitude else decimal magnitude)

end Double

/-- The value of what has been read, behind a sign. -/
def ofReading (negative : Bool) : Strtod.Reading → Double
  | .number n => ofRat n.negative n.magnitude
  | .infinity => .infinity negative
  | .nan => .nan

/-- `std::stod`; `none` is an exception. -/
def stod (text : List Char) : Option Double :=
  match Strtod.stod text with
  | .ok reading _ =>
      some (ofReading (Stoi.readSign (text.dropWhile Stoi.isSpace)).1 reading)
  | .invalidArgument | .outOfRange => none

/-! ## The nearest integer -/

section

variable {x : ℚ} {n : ℤ}

theorem roundEven_near (x : ℚ) : |(roundEven x : ℚ) - x| ≤ 1 / 2 := by
  have hlo := Int.floor_le x
  have hhi := Int.lt_floor_add_one x
  unfold roundEven
  split_ifs with hbelow habove
  · rw [abs_le]
    constructor <;> linarith
  · push_cast
    rw [abs_le]
    constructor <;> linarith
  · -- in the middle, either neighbour is as near
    have heven : (⌊x⌋ % 2 : ℤ) = 0 ∨ (⌊x⌋ % 2 : ℤ) = 1 := by omega
    push_cast
    rcases heven with heven | heven <;> rw [heven, abs_le] <;> push_cast <;>
      constructor <;> linarith

/-- An integer that is nearer than a half is the nearest one. -/
theorem roundEven_eq (h : |x - n| < 1 / 2) : roundEven x = n := by
  have hnear := abs_le.mp (roundEven_near x)
  have hn := abs_lt.mp h
  have hlt : (roundEven x : ℚ) < (n + 1 : ℤ) := by
    push_cast
    linarith
  have hgt : ((n - 1 : ℤ) : ℚ) < roundEven x := by
    push_cast
    linarith
  have hlt := Int.cast_lt.mp hlt
  have hgt := Int.cast_lt.mp hgt
  omega

theorem roundEven_le (h : x < n + 1 / 2) : roundEven x ≤ n := by
  have hnear := abs_le.mp (roundEven_near x)
  have hlt : (roundEven x : ℚ) < (n + 1 : ℤ) := by
    push_cast
    linarith
  have hlt := Int.cast_lt.mp hlt
  omega

/-- From the middle on an odd integer is left. -/
theorem lt_roundEven (hodd : n % 2 = 1) (h : n + 1 / 2 ≤ x) : n < roundEven x := by
  rcases h.eq_or_lt with heq | hlt
  · have hfloor : ⌊x⌋ = n := by
      rw [Int.floor_eq_iff]
      constructor <;> linarith
    unfold roundEven
    rw [hfloor, if_neg (by linarith), if_neg (by linarith), hodd]
    omega
  · have hnear := abs_le.mp (roundEven_near x)
    have hgt : (n : ℚ) < roundEven x := by linarith
    exact Int.cast_lt.mp hgt

theorem roundEven_nonneg (h : 0 ≤ x) : 0 ≤ roundEven x := by
  have hnear := abs_le.mp (roundEven_near x)
  have hgt : ((-1 : ℤ) : ℚ) < roundEven x := by
    push_cast
    linarith
  have hgt := Int.cast_lt.mp hgt
  omega

end

/-! ## The nearest value -/

section

variable {q r : ℚ}

theorem two_zpow_pos (e : ℤ) : (0 : ℚ) < 2 ^ e := zpow_pos (by norm_num) e

theorem lastBit_ge (q : ℚ) : -1074 ≤ lastBit q ∧ Int.log 2 q ≤ lastBit q + 52 := by
  unfold lastBit
  omega

theorem log_le (h : 0 < q) : (2 : ℚ) ^ Int.log 2 q ≤ q := Int.zpow_log_le_self (by decide) h

theorem lt_log_succ (q : ℚ) : q < (2 : ℚ) ^ (Int.log 2 q + 1) :=
  Int.lt_zpow_succ_log_self (by decide) q

theorem rounded_near (q : ℚ) : |rounded q - q| ≤ 2 ^ lastBit q / 2 := by
  have hpos := two_zpow_pos (lastBit q)
  have hnear := roundEven_near (q / 2 ^ lastBit q)
  have heq : rounded q - q = (roundEven (q / 2 ^ lastBit q) - q / 2 ^ lastBit q) * 2 ^ lastBit q := by
    unfold rounded
    rw [sub_mul, div_mul_cancel₀ _ hpos.ne']
  rw [heq, abs_mul, abs_of_pos hpos]
  calc _ ≤ 1 / 2 * 2 ^ lastBit q := mul_le_mul_of_nonneg_right hnear hpos.le
    _ = 2 ^ lastBit q / 2 := by ring

theorem rounded_zero : rounded 0 = 0 := by
  unfold rounded
  have hzero : roundEven 0 = 0 := roundEven_eq (by norm_num)
  rw [zero_div, hzero, Int.cast_zero, zero_mul]

theorem rounded_nonneg (h : 0 ≤ q) : 0 ≤ rounded q :=
  mul_nonneg (Int.cast_nonneg (roundEven_nonneg (div_nonneg h (two_zpow_pos _).le)))
    (two_zpow_pos _).le

/-- What a value that is finite may be. -/
def Representable (q : ℚ) : Prop :=
  ∃ m : ℕ, ∃ k : ℤ, m < 2 ^ 53 ∧ -1074 ≤ k ∧ q = m * 2 ^ k

theorem Representable.nonneg (h : Representable q) : 0 ≤ q := by
  obtain ⟨m, k, -, -, rfl⟩ := h
  exact mul_nonneg (Nat.cast_nonneg m) (two_zpow_pos k).le

/-- No value lies between zero and the smallest one. -/
theorem Representable.le_of_ne (h : Representable q) (hne : q ≠ 0) : (2 : ℚ) ^ (-1074 : ℤ) ≤ q := by
  obtain ⟨m, k, -, hk, rfl⟩ := h
  have hm : (1 : ℚ) ≤ m := by
    rw [← Nat.cast_one, Nat.cast_le, Nat.one_le_iff_ne_zero]
    rintro rfl
    simp at hne
  calc (2 : ℚ) ^ (-1074 : ℤ) ≤ 2 ^ k := zpow_le_zpow_right₀ (by norm_num) hk
    _ = 1 * 2 ^ k := (one_mul _).symm
    _ ≤ m * 2 ^ k := mul_le_mul_of_nonneg_right hm (two_zpow_pos k).le

theorem representable_rounded (h : 0 ≤ q) : Representable (rounded q) := by
  have hpos := two_zpow_pos (lastBit q)
  have hbit := lastBit_ge q
  -- a value has 53 bits, but the last one may be carried up to a bit in front of the first
  have hbits : q / 2 ^ lastBit q < 2 ^ 53 := by
    rw [div_lt_iff₀ hpos]
    calc q < (2 : ℚ) ^ (Int.log 2 q + 1) := lt_log_succ q
      _ ≤ 2 ^ (53 + lastBit q) := zpow_le_zpow_right₀ (by norm_num) (by omega)
      _ = 2 ^ (53 : ℤ) * 2 ^ lastBit q := zpow_add₀ (by norm_num) _ _
      _ = 2 ^ 53 * 2 ^ lastBit q := by norm_cast
  have hle : roundEven (q / 2 ^ lastBit q) ≤ 2 ^ 53 := by
    apply roundEven_le
    push_cast
    linarith
  have hnonneg := roundEven_nonneg (div_nonneg h hpos.le)
  obtain ⟨m, hm⟩ := Int.eq_ofNat_of_zero_le hnonneg
  unfold rounded
  rw [hm] at hle ⊢
  rcases hle.eq_or_lt with heq | hlt
  · refine ⟨2 ^ 52, lastBit q + 1, by norm_num, by omega, ?_⟩
    rw [heq, zpow_add_one₀ (by norm_num)]
    push_cast
    ring
  · exact ⟨m, lastBit q, by exact_mod_cast hlt, hbit.1, by push_cast; rfl⟩

/-- A value is nearest to the numbers around it, which are nearer than its last bits. -/
theorem rounded_of_near {a b : ℚ} (ha : Representable a) (hb : 0 < b) (hle : 2 ^ 60 * b ≤ a)
    (hnear : |q - a| ≤ b) : rounded q = a := by
  have hq := abs_le.mp hnear
  have hqpos : 0 < q := by nlinarith
  have hpos := two_zpow_pos (lastBit q)
  have hbit := lastBit_ge q
  have hlog := log_le hqpos
  have hsucc := lt_log_succ q
  rw [zpow_add_one₀ (by norm_num)] at hsucc
  obtain ⟨m, k, hm, hk, rfl⟩ := ha
  -- the first bit of the number is a bit of the value, or it lies between two values
  have hgrid : lastBit q ≤ k := by
    by_contra hlt
    push Not at hlt
    have hlast : lastBit q = Int.log 2 q - 52 := by
      unfold lastBit at hlt ⊢
      omega
    have hm' : (m : ℚ) + 1 ≤ 2 ^ 53 := by exact_mod_cast hm
    have hk' : (2 : ℚ) ^ 53 * 2 ^ k ≤ 2 ^ Int.log 2 q := by
      have hsum : (2 : ℚ) ^ 53 * 2 ^ k = 2 ^ ((53 : ℤ) + k) := by
        rw [zpow_add₀ (by norm_num)]
        norm_cast
      rw [hsum]
      exact zpow_le_zpow_right₀ (by norm_num) (by omega)
    have hkpos := two_zpow_pos k
    have hstep : ((m : ℚ) + 1) * 2 ^ k ≤ 2 ^ Int.log 2 q :=
      (mul_le_mul_of_nonneg_right hm' hkpos.le).trans hk'
    have hbelow : (m : ℚ) * 2 ^ k ≤ 2 ^ 53 * 2 ^ k :=
      mul_le_mul_of_nonneg_right (by linarith) hkpos.le
    nlinarith
  obtain ⟨d, hd⟩ := Int.eq_ofNat_of_zero_le (sub_nonneg.mpr hgrid)
  have hvalue : (m : ℚ) * 2 ^ k = ((m * 2 ^ d : ℕ) : ℤ) * 2 ^ lastBit q := by
    have hk' : k = d + lastBit q := by omega
    rw [hk', zpow_add₀ (by norm_num)]
    push_cast
    rw [zpow_natCast]
    ring
  have hlast : (2 : ℚ) ^ Int.log 2 q ≤ 2 ^ 52 * 2 ^ lastBit q := by
    have hsum : (2 : ℚ) ^ 52 * 2 ^ lastBit q = 2 ^ ((52 : ℤ) + lastBit q) := by
      rw [zpow_add₀ (by norm_num)]
      norm_cast
    rw [hsum]
    exact zpow_le_zpow_right₀ (by norm_num) (by omega)
  have hclose : |q / 2 ^ lastBit q - ((m * 2 ^ d : ℕ) : ℤ)| < 1 / 2 := by
    have hdiv : q / 2 ^ lastBit q - ((m * 2 ^ d : ℕ) : ℤ) =
        (q - m * 2 ^ k) / 2 ^ lastBit q := by
      rw [hvalue, sub_div, mul_div_cancel_right₀ _ hpos.ne']
    rw [hdiv, abs_div, abs_of_pos hpos, div_lt_iff₀ hpos]
    nlinarith
  unfold rounded
  rw [roundEven_eq hclose, ← hvalue]

/-- Rounding does not more than double a number that is not very small. -/
theorem rounded_le (h : (2 : ℚ) ^ (-1074 : ℤ) ≤ r) (hq : 0 ≤ q) : rounded q ≤ 2 * q + r := by
  have hrpos := (two_zpow_pos (-1074)).le.trans h
  rcases hq.eq_or_lt with rfl | hpos
  · rw [rounded_zero]
    linarith
  · have hnear := abs_le.mp (rounded_near q)
    have hlast : (2 : ℚ) ^ lastBit q ≤ q + r := by
      unfold lastBit
      rcases le_total (Int.log 2 q - 52) (-1074) with hle | hle
      · rw [max_eq_right hle]
        linarith
      · rw [max_eq_left hle]
        have hlog := log_le hpos
        have hless : (2 : ℚ) ^ (Int.log 2 q - 52) ≤ 2 ^ Int.log 2 q :=
          zpow_le_zpow_right₀ (by norm_num) (by omega)
        linarith
    linarith

/-! ## The operations on values that are finite -/

variable {s t : Bool} {a b : ℚ}

theorem limit_pos : 0 < limit :=
  sub_pos.mpr (pow_lt_pow_right₀ (by norm_num) (by norm_num))

theorem ofRat_of_lt (s : Bool) (h : q < limit) : ofRat s q = .finite s (rounded q) :=
  if_neg (not_le.mpr h)

theorem ofRat_of_le (s : Bool) (h : limit ≤ q) : ofRat s q = .infinity s := if_pos h

namespace Double

theorem sub_finite (h : |signed s a - signed t b| < limit) :
    ∃ u, sub (.finite s a) (.finite t b) = .finite u (rounded |signed s a - signed t b|) := by
  unfold sub
  dsimp only
  by_cases hv : signed s a - signed t b = 0
  · exact ⟨s && !t, by rw [if_pos hv, hv, abs_zero, rounded_zero]⟩
  · exact ⟨_, by rw [if_neg hv, ofRat_of_lt _ h]⟩

theorem sub_infinity (h : limit ≤ |signed s a - signed t b|) :
    ∃ u, sub (.finite s a) (.finite t b) = .infinity u := by
  have hv : signed s a - signed t b ≠ 0 := by
    intro hv
    rw [hv, abs_zero] at h
    exact absurd h (not_le.mpr limit_pos)
  unfold sub
  dsimp only
  exact ⟨_, by rw [if_neg hv, ofRat_of_le _ h]⟩

theorem div_finite (hb : b ≠ 0) : div (.finite s a) (.finite t b) = ofRat (s != t) (a / b) :=
  if_neg hb

end Double

theorem ofRat_finite (h : ofRat t q = .finite s a) : rounded q = a := by
  rcases lt_or_ge q limit with hlt | hge
  · rw [ofRat_of_lt t hlt] at h
    exact (Double.finite.inj h).2
  · rw [ofRat_of_le t hge] at h
    cases h

theorem magnitude_nonneg (n : Strtod.Numeral) : 0 ≤ n.magnitude := by
  have hten : (0 : ℚ) ≤ if n.hex then 2 else 10 := by split <;> norm_num
  exact mul_nonneg (mul_nonneg (Nat.cast_nonneg _) (zpow_nonneg (Nat.cast_nonneg _) _))
    (zpow_nonneg hten _)

theorem stod_finite {text : List Char} (h : stod text = some (.finite s a)) : Representable a := by
  unfold stod at h
  cases hread : Strtod.stod text with
  | invalidArgument =>
    rw [hread] at h
    cases h
  | outOfRange =>
    rw [hread] at h
    cases h
  | ok reading pos =>
    rw [hread] at h
    have hvalue := Option.some.inj h
    cases reading with
    | number n =>
      rw [← ofRat_finite hvalue]
      exact representable_rounded (magnitude_nonneg n)
    | infinity => exact Double.noConfusion hvalue
    | nan => exact Double.noConfusion hvalue

/-! ## Texts of values -/

theorem isDigits_sixDigits (n : Nat) : JsonText.isDigits (Double.sixDigits n) = true := by
  have hdigit : ∀ d < 10, (Nat.digitChar d).isDigit = true := by decide
  unfold JsonText.isDigits Double.sixDigits
  simp [hdigit, Nat.mod_lt]

/-- The text of a value that is finite is a number. -/
theorem number_toText (s : Bool) (a : ℚ) : JsonText.Number (Double.toText (.finite s a)) := by
  have hdecimal : JsonText.isUnsigned (Double.decimal a) = true := by
    apply JsonText.isUnsigned_point _ (JsonText.isNatural_toDigits _) (isDigits_sixDigits _)
    exact List.all_eq_true.mpr fun c hc ↦
      Nat.isDigit_of_mem_toDigits (by decide) (by decide) hc
  unfold JsonText.Number Double.toText
  dsimp only
  rw [String.toList_ofList]
  cases s with
  | true => exact hdecimal
  | false => exact JsonText.isNumber_of_isUnsigned hdecimal

theorem not_number_infinity (s : Bool) : ¬ JsonText.Number (Double.toText (.infinity s)) := by
  unfold JsonText.Number Double.toText
  cases s with
  | true => decide
  | false => decide

end

end Binary64
