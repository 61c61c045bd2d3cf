import FtyRest.Ecpp.Indicators

/-!
# The change of an indicator

When the change that a trend is made of is a number: the arithmetic of doubles overflows if the
average is too small for the actual value.
-/

namespace FtyRest.Ecpp

open Binary64

/-- The change of these values does not overflow: neither does their difference, nor is the actual
value more than the largest double is for a thousand, in terms of the average. -/
def Fits (valueActual valueAverage : Double) : Prop :=
  match valueActual, valueAverage with
  | .finite s a, .finite t b =>
      |signed s a - signed t b| < limit ∧ a < 9223372036854775 * 2 ^ 961 * b
  | _, _ => False

/-! ## The bounds -/

section

variable {p q r a b : ℚ} {n : ℤ}

theorem limit_eq : limit = (2 ^ 62 - 2 ^ 8) * 2 ^ 962 := by
  have hhigh : 1024 = 62 + 962 := by norm_num
  have hlow : 970 = 8 + 962 := by norm_num
  unfold limit
  rw [hhigh, hlow, pow_add, pow_add]
  exact (sub_mul _ _ _).symm

theorem two_pow_961 : (2 : ℚ) ^ 961 = 2 ^ 962 / 2 := by
  rw [pow_succ (2 : ℚ) 961, mul_div_cancel_right₀ _ (by norm_num)]

theorem lt_of_zpow_lt {m n : ℤ} (h : (2 : ℚ) ^ m < 2 ^ n) : m < n :=
  (zpow_lt_zpow_iff_right₀ (by norm_num)).mp h

theorem two_pow_mul (k : ℕ) : (2 : ℚ) ^ k * 2 ^ 962 = 2 ^ ((k : ℤ) + 962) := by
  rw [zpow_add₀ (by norm_num), zpow_natCast]
  exact congrArg _ (zpow_natCast (2 : ℚ) 962).symm

/-! Which multiples of `p` are in question, with `p` for the distance of the values there. -/

theorem thousand_small (hp : 0 < p) (hq : q < 2 ^ 52 * p) (hr : r ≤ q + p / 2) :
    r * 1000 < (2 ^ 62 - 2 ^ 8) * p ∧ q < 9223372036854775 * (p / 2) := by
  constructor <;> linarith

theorem thousand_large (hp : 0 < p) (hq : 2 ^ 53 * p ≤ q) (hr : q - q / 2 ^ 53 ≤ r) :
    (2 ^ 62 - 2 ^ 8) * p ≤ r * 1000 ∧ 9223372036854775 * (p / 2) ≤ q := by
  constructor <;> linarith

theorem thousand_between (hp : 0 < p) :
    roundEven (q / p) * p * 1000 < (2 ^ 62 - 2 ^ 8) * p ↔ q < 9223372036854775 * (p / 2) := by
  -- the greatest value whose thousandfold is finite ends with a bit that is set
  have hcut : roundEven (q / p) * p * 1000 < (2 ^ 62 - 2 ^ 8) * p ↔
      roundEven (q / p) ≤ 4611686018427387 := by
    rw [mul_right_comm, mul_lt_mul_iff_left₀ hp]
    constructor
    · intro h
      have hlt : (roundEven (q / p) : ℚ) < (4611686018427388 : ℤ) := by
        push_cast
        linarith
      have hlt := Int.cast_lt.mp hlt
      omega
    · intro h
      have hle : (roundEven (q / p) : ℚ) ≤ (4611686018427387 : ℤ) := Int.cast_le.mpr h
      push_cast at hle
      linarith
  have hmid : q < 9223372036854775 * (p / 2) ↔
      q / p < ((4611686018427387 : ℤ) : ℚ) + 1 / 2 := by
    rw [div_lt_iff₀ hp]
    push_cast
    constructor <;> intro h <;> linarith
  rw [hcut, hmid]
  constructor
  · intro h
    by_contra hge
    have hnext := lt_roundEven (by decide) (not_lt.mp hge)
    omega
  · exact roundEven_le

/-- What a quotient may be for its thousandfold to be finite. -/
theorem rounded_thousand_iff (hq : 0 ≤ q) :
    rounded q * 1000 < limit ↔ q < 9223372036854775 * 2 ^ 961 := by
  have hpos : (0 : ℚ) < 2 ^ 962 := pow_pos (by norm_num) 962
  have hnear := abs_le.mp (rounded_near q)
  have hsucc := lt_log_succ q
  rw [limit_eq, two_pow_961]
  rcases lt_or_ge q (2 ^ 52 * 2 ^ 962) with hsmall | hsmall
  · have hlast : (2 : ℚ) ^ lastBit q ≤ 2 ^ 962 := by
      rw [← zpow_natCast (2 : ℚ) 962]
      apply zpow_le_zpow_right₀ (by norm_num)
      have hlog : Int.log 2 q < 1014 := by
        rcases hq.eq_or_lt with rfl | hqpos
        · rw [Int.log_zero_right]
          norm_num
        · have hlt := (log_le hqpos).trans_lt hsmall
          rw [two_pow_mul] at hlt
          exact lt_of_zpow_lt hlt
      unfold lastBit
      omega
    have hclose : rounded q ≤ q + 2 ^ 962 / 2 :=
      sub_le_iff_le_add'.mp (hnear.2.trans (div_le_div_of_nonneg_right hlast two_pos.le))
    obtain ⟨hthousand, hbound⟩ := thousand_small hpos hsmall hclose
    exact iff_of_true hthousand hbound
  · have hqpos : 0 < q := lt_of_lt_of_le (by positivity) hsmall
    have hlog : 1014 ≤ Int.log 2 q := by
      have hlt := hsmall.trans_lt hsucc
      rw [two_pow_mul] at hlt
      have hlt := lt_of_zpow_lt hlt
      omega
    have hlast : lastBit q = Int.log 2 q - 52 := by
      unfold lastBit
      omega
    rcases lt_or_ge q (2 ^ 53 * 2 ^ 962) with hlarge | hlarge
    · -- the values here are the multiples of a power of two
      have hlt := (log_le hqpos).trans_lt hlarge
      rw [two_pow_mul] at hlt
      have hlt := lt_of_zpow_lt hlt
      have heq : (2 : ℚ) ^ lastBit q = 2 ^ 962 := by
        have hbit : lastBit q = ((962 : ℕ) : ℤ) := by omega
        rw [hbit, zpow_natCast]
      unfold rounded
      rw [heq]
      exact thousand_between hpos
    · have hstep : (2 : ℚ) ^ 52 * 2 ^ lastBit q ≤ q := by
        have hsum : (2 : ℚ) ^ 52 * 2 ^ lastBit q = 2 ^ Int.log 2 q := by
          rw [hlast, zpow_sub₀ (by norm_num), zpow_ofNat, ← mul_div_assoc,
            mul_div_cancel_left₀ _ (by norm_num)]
        rw [hsum]
        exact log_le hqpos
      have hbelow : q - q / 2 ^ 53 ≤ rounded q := by linarith
      have hout := thousand_large hpos hlarge hbelow
      exact iff_of_false (not_lt.mpr hout.1) (not_lt.mpr hout.2)

/-- The quotient of the rounded difference and the average is as large as that of the actual value
is: where this matters the average is too small to be seen in the difference. -/
theorem rounded_div_lt_iff (ha : Representable a) (hb : Representable b) (hne : b ≠ 0)
    (hq : 0 ≤ q) (hnear : |q - a| ≤ b) (hbound : 2 ^ 63 ≤ p) :
    rounded q / b < p ↔ a < p * b := by
  have hpos : 0 < b := hb.nonneg.lt_of_ne hne.symm
  rw [div_lt_iff₀ hpos]
  rcases le_or_gt (2 ^ 60 * b) a with hle | hlt
  · rw [rounded_of_near ha hpos hle hnear]
  · have hmul := mul_le_mul_of_nonneg_right hbound hpos.le
    have hrounded := rounded_le (hb.le_of_ne hne) hq
    have hq' := abs_le.mp hnear
    constructor
    · intro _
      linarith
    · intro _
      linarith

end

/-! ## The change -/

section

variable {s t : Bool} {a b : ℚ}

theorem change_nan_left (x : Double) : relativeChange .nan x = .nan := by
  cases x <;> rfl

theorem change_nan_right (y : Double) : relativeChange y .nan = .nan := by
  cases y <;> rfl

theorem change_infinity_right (y : Double) (t : Bool) : relativeChange y (.infinity t) = .nan := by
  cases y with
  | nan => rfl
  | finite s a => rfl
  | infinity s => cases s <;> cases t <;> rfl

/-- What is done with the quotient. -/
def permille (quotient : Double) : Double :=
  ((quotient.mul (.finite false 1000)).round).div (.finite false 10)

theorem permille_infinity (u : Bool) : permille (.infinity u) = .infinity u := by
  have hthousand : (Double.infinity u).mul (.finite false 1000) = .infinity (u != false) := by
    show (if (1000 : ℚ) = 0 then Double.nan else Double.infinity (u != false)) = _
    rw [if_neg (by norm_num)]
  unfold permille
  rw [hthousand]
  cases u <;> rfl

/-- A tenth of a whole number that is finite is no more than it. -/
theorem tenth_lt {z : ℚ} (h : 0 ≤ z) (hlt : z < limit) :
    ((⌊rounded z + 1 / 2⌋ : ℤ) : ℚ) / 10 < limit := by
  have hfloor := Int.floor_le (rounded z + 1 / 2)
  have hone : (2 : ℚ) ^ (-1074 : ℤ) ≤ 1 := zpow_le_one_of_nonpos₀ (by norm_num) (by norm_num)
  have hrounded := rounded_le hone h
  have hlimit : 1 ≤ limit := by
    rw [limit_eq]
    have hpow : (1 : ℚ) ≤ 2 ^ 962 := one_le_pow₀ (by norm_num)
    exact one_le_mul_of_one_le_of_one_le (by norm_num) hpow
  linarith

theorem permille_finite (u : Bool) {r : ℚ} (hr : 0 ≤ r) (h : r * 1000 < limit) :
    ∃ w z, permille (.finite u r) = .finite w z := by
  have hmul : (Double.finite u r).mul (.finite false 1000) =
      .finite (u != false) (rounded (r * 1000)) := ofRat_of_lt _ h
  have htenth := tenth_lt (mul_nonneg hr (by norm_num)) h
  unfold permille
  rw [hmul]
  show ∃ w z, Double.div (.finite _ _) (.finite _ _) = _
  rw [Double.div_finite (by norm_num), ofRat_of_lt _ htenth]
  exact ⟨_, _, rfl⟩

theorem permille_overflow (u : Bool) {r : ℚ} (h : limit ≤ r * 1000) :
    ∃ w, permille (.finite u r) = .infinity w := by
  have hmul : (Double.finite u r).mul (.finite false 1000) = .infinity (u != false) :=
    ofRat_of_le _ h
  unfold permille
  rw [hmul]
  exact ⟨_, rfl⟩

theorem change_infinity_left (s t : Bool) (b : ℚ) :
    ∃ u, relativeChange (.infinity s) (.finite t b) = .infinity u :=
  ⟨s != t, permille_infinity (s != t)⟩

/-- The difference is as far from the actual value as the average is from zero. -/
theorem difference_near (ha : 0 ≤ a) (hb : 0 ≤ b) : |(|signed s a - signed t b|) - a| ≤ b := by
  have habs (u : Bool) {c : ℚ} (hc : 0 ≤ c) : |signed u c| = c := by
    cases u with
    | true => exact (abs_neg c).trans (abs_of_nonneg hc)
    | false => exact abs_of_nonneg hc
  have hnear := abs_abs_sub_abs_le (signed s a - signed t b) (signed s a)
  rw [habs s ha, sub_sub_cancel_left, abs_neg, habs t hb] at hnear
  exact hnear

theorem bound_lt_limit : (9223372036854775 : ℚ) * 2 ^ 961 < limit := by
  have hpos : (0 : ℚ) < 2 ^ 962 := pow_pos (by norm_num) 962
  rw [limit_eq, two_pow_961, ← mul_div_assoc, mul_div_right_comm]
  exact mul_lt_mul_of_pos_right (by norm_num) hpos

/-- The change of two finite values is finite if they fit, and an infinity otherwise. -/
theorem change_finite (ha : Representable a) (hb : Representable b) (hne : b ≠ 0) :
    Fits (.finite s a) (.finite t b) ∧
      (∃ w z, relativeChange (.finite s a) (.finite t b) = .finite w z) ∨
    ¬ Fits (.finite s a) (.finite t b) ∧
      ∃ w, relativeChange (.finite s a) (.finite t b) = .infinity w := by
  have hchange : relativeChange (.finite s a) (.finite t b) =
      permille (((Double.finite s a).sub (.finite t b)).div (.finite t b)) := rfl
  rw [hchange]
  -- the difference, the quotient and the product may each overflow
  rcases lt_or_ge |signed s a - signed t b| limit with hv | hv
  · obtain ⟨u, hsub⟩ := Double.sub_finite hv
    have hbound : (2 : ℚ) ^ 63 ≤ 9223372036854775 * 2 ^ 961 := by
      have hpow : (2 : ℚ) ^ 63 ≤ 2 ^ 961 := pow_le_pow_right₀ (by norm_num) (by norm_num)
      exact hpow.trans (le_mul_of_one_le_left (pow_nonneg (by norm_num) 961) (by norm_num))
    have hnear := difference_near (s := s) (t := t) ha.nonneg hb.nonneg
    -- at the size of the bound, what is taken off `a` is lost in the rounding
    have hdiv := rounded_div_lt_iff ha hb hne (abs_nonneg _) hnear hbound
    have hnonneg := div_nonneg (rounded_nonneg (abs_nonneg (signed s a - signed t b))) hb.nonneg
    have hfits : Fits (.finite s a) (.finite t b) ↔ a < 9223372036854775 * 2 ^ 961 * b :=
      and_iff_right hv
    rw [hsub, Double.div_finite hne, hfits, ← hdiv]
    rcases lt_or_ge (rounded |signed s a - signed t b| / b) limit with hq | hq
    · rw [ofRat_of_lt _ hq, ← rounded_thousand_iff hnonneg]
      rcases lt_or_ge (rounded (rounded |signed s a - signed t b| / b) * 1000) limit with hlt | hge
      · exact Or.inl ⟨hlt, permille_finite _ (rounded_nonneg hnonneg) hlt⟩
      · exact Or.inr ⟨not_lt.mpr hge, permille_overflow _ hge⟩
    · right
      rw [ofRat_of_le _ hq]
      exact ⟨not_lt.mpr (bound_lt_limit.le.trans hq), _, permille_infinity _⟩
  · right
    obtain ⟨u, hsub⟩ := Double.sub_infinity hv
    rw [hsub]
    exact ⟨fun h ↦ not_lt.mpr hv h.1, _, permille_infinity _⟩

/-- The change is no number, whatever else is known of the values: one of them is no number, or
the average is zero or infinite. -/
def noChange (valueActual valueAverage : Double) : Bool :=
  match valueActual, valueAverage with
  | .nan, _ | _, .nan | _, .infinity _ => true
  | _, .finite _ b => b = 0

theorem change_of_noChange {valueActual valueAverage : Double}
    (h : noChange valueActual valueAverage = true) :
    valueAverage.isZero = true ∨ relativeChange valueActual valueAverage = .nan := by
  cases valueAverage with
  | nan => exact Or.inr (change_nan_right valueActual)
  | infinity t => exact Or.inr (change_infinity_right valueActual t)
  | finite t b =>
    cases valueActual with
    | nan => exact Or.inr (change_nan_left _)
    | infinity s => exact Or.inl h
    | finite s a => exact Or.inl h

/-- A change that is computed is finite if the values fit, and an infinity otherwise. -/
theorem change_of_change {valueActual valueAverage : Double}
    (hactual : ∀ s a, valueActual = .finite s a → Representable a)
    (haverage : ∀ t b, valueAverage = .finite t b → Representable b)
    (h : noChange valueActual valueAverage = false) :
    valueAverage.isZero = false ∧
      (Fits valueActual valueAverage ∧ (∃ w z, relativeChange valueActual valueAverage = .finite w z) ∨
        ¬ Fits valueActual valueAverage ∧ ∃ w, relativeChange valueActual valueAverage = .infinity w) := by
  cases valueAverage with
  | nan => cases valueActual <;> cases h
  | infinity t => cases valueActual <;> cases h
  | finite t b =>
    cases valueActual with
    | nan => cases h
    | infinity s => exact ⟨h, Or.inr ⟨id, change_infinity_left s t b⟩⟩
    | finite s a =>
      have hne : b ≠ 0 := of_decide_eq_false h
      exact ⟨h, change_finite (hactual s a rfl) (haverage t b rfl) hne⟩

end

end FtyRest.Ecpp
