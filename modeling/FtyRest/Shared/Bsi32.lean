import Mathlib.Algebra.Field.Rat
import Mathlib.Algebra.Order.Field.Rat
import Mathlib.Tactic.NormNum
import Mathlib.Tactic.Ring

/-!
# Scaled integers of 32 bits

The addition of two integers with a power of ten each, from `shared/utils.cc`.
-/

/-! ## Scaled integers

Numbers that are given by an integer and a power of ten. -/

namespace Scaled

/-- `n * 10 ^ s` -/
def value (n s : Int) : ℚ := n * 10 ^ s

theorem ten_zpow_ne_zero (s : Int) : (10 : ℚ) ^ s ≠ 0 := zpow_ne_zero s (by norm_num)

theorem value_inj {n m s : Int} : value n s = value m s ↔ n = m := by
  unfold value
  rw [mul_left_inj' (ten_zpow_ne_zero s)]
  exact Int.cast_inj

theorem value_add (n m s : Int) : value n s + value m s = value (n + m) s := by
  unfold value
  rw [Int.cast_add]
  ring

/-- The scale is lowered by as many powers of ten as the integer is multiplied with. -/
theorem value_lower (n s : Int) (k : Nat) : value n (s + k) = value (n * 10 ^ k) s := by
  unfold value
  rw [zpow_add₀ (by norm_num), zpow_natCast, Int.cast_mul, Int.cast_pow, Int.cast_ofNat]
  ring

end Scaled

namespace FtyRest.Shared

def int32Max : Int32 := 2147483647

def int32Min : Int32 := -2147483648

/-- `addi32_overflow`: whether there is a result, and what `res` is left with. -/
def addi32Overflow (a b res : Int32) : Bool × Int32 :=
  -- the sum of two ints is an int
  let lRes := (a + b).toInt64
  if lRes > int32Max.toInt64 ∨ lRes < int32Min.toInt64 then (false, res)
  else (true, lRes.toInt32)

/-- The loop that goes to a smaller scale. -/
def multiplyTens : Nat → Int32 → Option Int32
  | 0, lValue => some lValue
  | n + 1, lValue =>
      if lValue ≥ int32Max / 10 ∨ lValue ≤ int32Min / 10 then none
      else multiplyTens n (lValue * 10)

/-- The loop that goes to a larger scale. -/
def divideTens : Nat → Int32 → Int32
  | 0, lValue => lValue
  | n + 1, lValue => divideTens n (lValue / 10)

/-- `bsi32_rescale`, with what `value` is left with. -/
def bsi32Rescale (inValue : Int32) (inScale newScale : Int8) (value : Int32) : Bool × Int32 :=
  if inScale = newScale then (true, inValue)
  else
    let steps := (inScale.toInt - newScale.toInt).natAbs
    if inScale > newScale then
      match multiplyTens steps inValue with
      | none => (false, value)
      | some lValue => (true, lValue)
    else (true, divideTens steps inValue)

/-- `bsi32_add`, with what `value` and `scale` are left with. -/
def bsi32Add (value1 : Int32) (scale1 : Int8) (value2 : Int32) (scale2 : Int8) (value : Int32)
    (scale : Int8) : Bool × Int32 × Int8 :=
  let lScale := if scale1 < scale2 then scale1 else scale2
  let (ret, lValue1) := bsi32Rescale value1 scale1 lScale 0
  if !ret then (false, value, scale)
  else
    let (ret, lValue2) := bsi32Rescale value2 scale2 lScale 0
    if !ret then (false, value, scale)
    else
      let (ret, lValue) := addi32Overflow lValue1 lValue2 0
      if !ret then (false, value, scale)
      else (true, lValue, lScale)

/-! ## Integers of 32 bits -/

/-- What an `int32_t` can hold. -/
def Fits32 (n : Int) : Prop := -2 ^ 31 ≤ n ∧ n < 2 ^ 31

instance (n : Int) : Decidable (Fits32 n) := inferInstanceAs (Decidable (_ ∧ _))

theorem fits32_toInt (v : Int32) : Fits32 v.toInt := ⟨v.le_toInt, v.toInt_lt⟩

theorem toInt_ofInt_of_fits {n : Int} (h : Fits32 n) : (Int32.ofInt n).toInt = n :=
  Int32.toInt_ofInt_of_le h.1 h.2

theorem toInt_mul_ten {v : Int32} (h : Fits32 (v.toInt * 10)) : (v * 10).toInt = v.toInt * 10 := by
  rw [Int32.toInt_mul]
  have hten : (10 : Int32).toInt = 10 := by decide
  rw [hten]
  unfold Fits32 at h
  apply Int.bmod_eq_of_le
  · omega
  · omega

/-- The check for an overflow comes after the sum is an `int` again. -/
theorem addi32Overflow_eq (a b res : Int32) : addi32Overflow a b res = (true, a + b) := by
  have hmax : ¬ (a + b).toInt64 > int32Max.toInt64 := by
    rw [gt_iff_lt, Int64.lt_iff_toInt_lt, Int32.toInt_toInt64, Int32.toInt_toInt64]
    have hle := (a + b).toInt_lt
    have hcode : int32Max.toInt = 2147483647 := by decide
    omega
  have hmin : ¬ (a + b).toInt64 < int32Min.toInt64 := by
    rw [Int64.lt_iff_toInt_lt, Int32.toInt_toInt64, Int32.toInt_toInt64]
    have hle := (a + b).le_toInt
    have hcode : int32Min.toInt = -2147483648 := by decide
    omega
  unfold addi32Overflow
  dsimp only
  rw [if_neg (not_or.mpr ⟨hmax, hmin⟩), Int32.toInt32_toInt64]

/-! ## Going to a smaller scale -/

/-- The last integer whose tenfold fits, and which is refused. -/
def Boundary (n : Int) (steps : Nat) : Prop := steps = 1 ∧ n.natAbs = 214748364

instance (n : Int) (steps : Nat) : Decidable (Boundary n steps) :=
  inferInstanceAs (Decidable (_ ∧ _))

theorem boundary_iff_toInt {v : Int32} :
    v ≥ int32Max / 10 ∨ v ≤ int32Min / 10 ↔ 214748364 ≤ v.toInt.natAbs := by
  have hmax : (int32Max / 10).toInt = 214748364 := by decide
  have hmin : (int32Min / 10).toInt = -214748364 := by decide
  rw [ge_iff_le, Int32.le_iff_toInt_le, Int32.le_iff_toInt_le, hmax, hmin]
  omega

theorem mul_ten_eq {v : Int32} (h : v.toInt.natAbs < 214748364) :
    v * 10 = Int32.ofInt (v.toInt * 10) ∧ (v * 10).toInt = v.toInt * 10 := by
  have hfits : Fits32 (v.toInt * 10) := by
    unfold Fits32
    omega
  have htoInt := toInt_mul_ten hfits
  constructor
  · apply Int32.toInt_inj.mp
    rw [htoInt, toInt_ofInt_of_fits hfits]
  · exact htoInt

/-- The loop gets to its end unless the integer is too large before one of the steps; it is largest
before the last one. -/
theorem multiplyTens_succ {steps : Nat} {v : Int32} :
    multiplyTens (steps + 1) v =
      if v.toInt.natAbs * 10 ^ steps < 214748364 then
        some (Int32.ofInt (v.toInt * 10 ^ (steps + 1)))
      else none := by
  induction steps generalizing v with
  | zero =>
    rw [multiplyTens]
    simp only [boundary_iff_toInt, Nat.pow_zero, Nat.mul_one]
    by_cases hlarge : 214748364 ≤ v.toInt.natAbs
    · rw [if_pos hlarge, if_neg (by omega)]
    · rw [if_neg hlarge, if_pos (by omega), multiplyTens, (mul_ten_eq (by omega)).1]
      rfl
  | succ steps ih =>
    rw [multiplyTens]
    simp only [boundary_iff_toInt]
    by_cases hlarge : 214748364 ≤ v.toInt.natAbs
    · have hpos : 1 ≤ 10 ^ (steps + 1) := Nat.one_le_pow _ _ (by decide)
      -- past the bound every further step is past it as well
      have hmul := Nat.mul_le_mul_left v.toInt.natAbs hpos
      rw [if_pos hlarge, if_neg (by omega)]
    · -- one step below the bound is exact
      have hten := (mul_ten_eq (v := v) (by omega)).2
      have habs : (v.toInt * 10).natAbs * 10 ^ steps = v.toInt.natAbs * 10 ^ (steps + 1) := by
        rw [Int.natAbs_mul, Nat.pow_succ]
        show v.toInt.natAbs * 10 * 10 ^ steps = v.toInt.natAbs * (10 ^ steps * 10)
        ring
      have hvalue : v.toInt * 10 * 10 ^ (steps + 1) = v.toInt * 10 ^ (steps + 1 + 1) := by ring
      rw [if_neg hlarge, ih, hten, habs, hvalue]

/-- The loop gets to its end when the result fits, but for one boundary. -/
theorem multiplyTens_eq {steps : Nat} {v : Int32} :
    multiplyTens steps v =
      if Fits32 (v.toInt * 10 ^ steps) ∧ ¬ Boundary v.toInt steps then
        some (Int32.ofInt (v.toInt * 10 ^ steps))
      else none := by
  cases steps with
  | zero =>
    have hfits : Fits32 (v.toInt * 10 ^ 0) := by
      rw [pow_zero, mul_one]
      exact fits32_toInt v
    have hboundary : ¬ Boundary v.toInt 0 := fun h ↦ absurd h.1 (by decide)
    rw [if_pos ⟨hfits, hboundary⟩, multiplyTens, pow_zero, mul_one, Int32.ofInt_toInt]
  | succ k =>
    have habs : (v.toInt * 10 ^ (k + 1)).natAbs = 10 * (v.toInt.natAbs * 10 ^ k) := by
      rw [Int.natAbs_mul, Int.natAbs_pow]
      show v.toInt.natAbs * 10 ^ (k + 1) = _
      ring
    have hiff : v.toInt.natAbs * 10 ^ k < 214748364 ↔
        Fits32 (v.toInt * 10 ^ (k + 1)) ∧ ¬ Boundary v.toInt (k + 1) := by
      unfold Fits32 Boundary
      cases k with
      | zero =>
        rw [pow_zero, mul_one] at habs ⊢
        omega
      | succ k =>
        -- the tenfold of an integer is never the boundary
        have hten : v.toInt.natAbs * 10 ^ (k + 1) = 10 * (v.toInt.natAbs * 10 ^ k) := by ring
        rw [hten] at habs ⊢
        omega
    rw [multiplyTens_succ]
    simp only [hiff]

/-! ## The sum -/

/-- The steps from a scale to a smaller one. -/
def stepsTo (inScale newScale : Int8) : Nat := (inScale.toInt - newScale.toInt).toNat

/-- What an operand is at the smaller scale. -/
def lowered (value : Int32) (inScale newScale : Int8) : Int :=
  value.toInt * 10 ^ stepsTo inScale newScale

/-- Whether an operand is taken to the smaller scale. -/
def Rescaled (value : Int32) (inScale newScale : Int8) : Prop :=
  Fits32 (lowered value inScale newScale) ∧ ¬ Boundary value.toInt (stepsTo inScale newScale)

instance (value : Int32) (inScale newScale : Int8) : Decidable (Rescaled value inScale newScale) :=
  inferInstanceAs (Decidable (_ ∧ _))

theorem multiplyTens_stepsTo {value : Int32} {inScale newScale : Int8} :
    multiplyTens (stepsTo inScale newScale) value =
      if Rescaled value inScale newScale then some (Int32.ofInt (lowered value inScale newScale))
      else none :=
  multiplyTens_eq

theorem bsi32Rescale_lower {inValue value : Int32} {inScale newScale : Int8}
    (h : newScale.toInt ≤ inScale.toInt) :
    bsi32Rescale inValue inScale newScale value =
      if Rescaled inValue inScale newScale then
        (true, Int32.ofInt (lowered inValue inScale newScale))
      else (false, value) := by
  have hsteps : (inScale.toInt - newScale.toInt).natAbs = stepsTo inScale newScale := by
    unfold stepsTo
    omega
  have hloop : multiplyTens (stepsTo inScale newScale) inValue =
      if Rescaled inValue inScale newScale then
        some (Int32.ofInt (lowered inValue inScale newScale))
      else none := multiplyTens_stepsTo
  unfold bsi32Rescale
  -- equal scales are answered in front of the loop, with the value as it is
  by_cases heq : inScale = newScale
  · have hzero : stepsTo inScale newScale = 0 := by
      rw [← hsteps, heq]
      omega
    rw [hzero, multiplyTens] at hloop
    rw [if_pos heq]
    by_cases hfits : Rescaled inValue inScale newScale
    · rw [if_pos hfits] at hloop ⊢
      rw [← Option.some.inj hloop]
    · rw [if_neg hfits] at hloop
      exact absurd hloop (by simp)
  · have hgt : inScale > newScale := by
      rw [gt_iff_lt, Int8.lt_iff_toInt_lt]
      have hne : inScale.toInt ≠ newScale.toInt := fun heq' ↦ heq (Int8.toInt_inj.mp heq')
      omega
    dsimp only
    rw [if_neg heq, if_pos hgt, hsteps, hloop]
    by_cases hfits : Rescaled inValue inScale newScale
    · rw [if_pos hfits, if_pos hfits]
    · rw [if_neg hfits, if_neg hfits]

theorem min_scale (scale1 scale2 : Int8) :
    (if scale1 < scale2 then scale1 else scale2) = min scale1 scale2 ∧
      (min scale1 scale2).toInt ≤ scale1.toInt ∧ (min scale1 scale2).toInt ≤ scale2.toInt := by
  have hmin : min scale1 scale2 = if scale1 ≤ scale2 then scale1 else scale2 := rfl
  rw [hmin]
  by_cases hlt : scale1.toInt < scale2.toInt
  · rw [if_pos (Int8.lt_iff_toInt_lt.mpr hlt), if_pos (Int8.le_iff_toInt_le.mpr (by omega))]
    exact ⟨rfl, by omega, by omega⟩
  · rw [if_neg (fun h ↦ hlt (Int8.lt_iff_toInt_lt.mp h))]
    by_cases heq : scale1 = scale2
    · subst heq
      rw [if_pos (Int8.le_refl _)]
      exact ⟨rfl, by omega, by omega⟩
    · have hne : scale1.toInt ≠ scale2.toInt := fun heq' ↦ heq (Int8.toInt_inj.mp heq')
      rw [if_neg (fun h ↦ by rw [Int8.le_iff_toInt_le] at h; omega)]
      exact ⟨rfl, by omega, by omega⟩

/-- The sum is taken whenever both operands get to the smaller scale; it is not checked itself. -/
theorem bsi32Add_eq (value1 : Int32) (scale1 : Int8) (value2 : Int32) (scale2 : Int8)
    (value : Int32) (scale : Int8) :
    bsi32Add value1 scale1 value2 scale2 value scale =
      let lScale := min scale1 scale2
      if Rescaled value1 scale1 lScale ∧ Rescaled value2 scale2 lScale then
        (true, Int32.ofInt (lowered value1 scale1 lScale + lowered value2 scale2 lScale), lScale)
      else (false, value, scale) := by
  obtain ⟨hscale, hle1, hle2⟩ := min_scale scale1 scale2
  unfold bsi32Add
  dsimp only
  rw [hscale, bsi32Rescale_lower hle1, bsi32Rescale_lower hle2]
  by_cases h1 : Rescaled value1 scale1 (min scale1 scale2)
  · by_cases h2 : Rescaled value2 scale2 (min scale1 scale2)
    · simp only [if_pos h1, if_pos h2, if_pos (And.intro h1 h2), addi32Overflow_eq,
        Int32.ofInt_add, Bool.not_true, Bool.false_eq_true, if_false]
    · simp only [if_pos h1, if_neg h2, if_neg (not_and_of_not_right _ h2), Bool.not_true,
        Bool.not_false, Bool.false_eq_true, if_false, if_true]
  · simp only [if_neg h1, if_neg (not_and_of_not_left _ h1), Bool.not_false, if_true]

/-! ## Exactness -/

/-- The number that is given by a value and a scale. -/
def exact (value : Int32) (scale : Int8) : ℚ := Scaled.value value.toInt scale.toInt

/-- A multiple of the scale by an `int32_t`. -/
def Representable (x : ℚ) (scale : Int8) : Prop := ∃ value : Int32, x = exact value scale

theorem representable_iff {n : Int} {scale : Int8} :
    Representable (Scaled.value n scale.toInt) scale ↔ Fits32 n := by
  constructor
  · rintro ⟨value, heq⟩
    rw [Scaled.value_inj.mp heq]
    exact fits32_toInt value
  · intro h
    refine ⟨Int32.ofInt n, ?_⟩
    rw [exact, toInt_ofInt_of_fits h]

theorem exact_lowered {value : Int32} {inScale newScale : Int8}
    (h : newScale.toInt ≤ inScale.toInt) :
    exact value inScale = Scaled.value (lowered value inScale newScale) newScale.toInt := by
  have hscale : inScale.toInt = newScale.toInt + stepsTo inScale newScale := by
    unfold stepsTo
    omega
  rw [exact, hscale, Scaled.value_lower, lowered]

/-- The operands and their sum are what 32 bits can hold at the smaller scale. -/
def SumRepresentable (value1 : Int32) (scale1 : Int8) (value2 : Int32) (scale2 : Int8) : Prop :=
  Representable (exact value1 scale1) (min scale1 scale2) ∧
    Representable (exact value2 scale2) (min scale1 scale2) ∧
      Representable (exact value1 scale1 + exact value2 scale2) (min scale1 scale2)

/-- The addition gives the sum when it can, and leaves everything as it was when it cannot. -/
structure ExactSum (value1 : Int32) (scale1 : Int8) (value2 : Int32) (scale2 : Int8)
    (value : Int32) (scale : Int8) (result : Bool × Int32 × Int8) : Prop where
  sum : SumRepresentable value1 scale1 value2 scale2 →
    result.1 = true ∧ result.2.2 = min scale1 scale2 ∧
      exact result.2.1 result.2.2 = exact value1 scale1 + exact value2 scale2
  unchanged : ¬ SumRepresentable value1 scale1 value2 scale2 → result = (false, value, scale)

theorem sumRepresentable_iff {value1 value2 : Int32} {scale1 scale2 : Int8} :
    SumRepresentable value1 scale1 value2 scale2 ↔
      let lScale := min scale1 scale2
      Fits32 (lowered value1 scale1 lScale) ∧ Fits32 (lowered value2 scale2 lScale) ∧
        Fits32 (lowered value1 scale1 lScale + lowered value2 scale2 lScale) := by
  obtain ⟨-, hle1, hle2⟩ := min_scale scale1 scale2
  unfold SumRepresentable
  rw [exact_lowered hle1, exact_lowered hle2, Scaled.value_add, representable_iff,
    representable_iff, representable_iff]

/-- An operand is at the boundary. -/
def AtBoundary (value1 : Int32) (scale1 : Int8) (value2 : Int32) (scale2 : Int8) : Prop :=
  Boundary value1.toInt (stepsTo scale1 (min scale1 scale2)) ∨
    Boundary value2.toInt (stepsTo scale2 (min scale1 scale2))

/-- The sum is not checked, and an operand at the boundary is refused. -/
theorem bsi32Add_exact_iff (value1 : Int32) (scale1 : Int8) (value2 : Int32) (scale2 : Int8)
    (value : Int32) (scale : Int8) :
    ExactSum value1 scale1 value2 scale2 value scale
        (bsi32Add value1 scale1 value2 scale2 value scale) ↔
      (Fits32 (lowered value1 scale1 (min scale1 scale2)) →
        Fits32 (lowered value2 scale2 (min scale1 scale2)) →
          (Fits32 (lowered value1 scale1 (min scale1 scale2) +
            lowered value2 scale2 (min scale1 scale2)) ↔
              ¬ AtBoundary value1 scale1 value2 scale2)) := by
  rw [bsi32Add_eq]
  dsimp only
  constructor
  · intro h hfits1 hfits2
    constructor
    · intro hsum hboundary
      obtain ⟨htrue, -⟩ := h.sum (sumRepresentable_iff.mpr ⟨hfits1, hfits2, hsum⟩)
      -- at the boundary a rescaling refuses, although the sum would fit
      have hrefused : ¬ (Rescaled value1 scale1 (min scale1 scale2) ∧
          Rescaled value2 scale2 (min scale1 scale2)) := by
        intro hboth
        rcases hboundary with hboundary | hboundary
        · exact hboth.1.2 hboundary
        · exact hboth.2.2 hboundary
      rw [if_neg hrefused] at htrue
      exact absurd htrue Bool.false_ne_true
    · intro hboundary
      by_contra hsum
      have hnot : ¬ SumRepresentable value1 scale1 value2 scale2 :=
        fun hsum' ↦ hsum (sumRepresentable_iff.mp hsum').2.2
      -- the 32-bit sum wraps, and its check on the range lets it through
      have hfalse := h.unchanged hnot
      rw [if_pos ⟨⟨hfits1, fun hb ↦ hboundary (Or.inl hb)⟩,
        ⟨hfits2, fun hb ↦ hboundary (Or.inr hb)⟩⟩] at hfalse
      exact absurd (congrArg Prod.fst hfalse) (by simp)
  · intro h
    constructor
    · intro hrepresentable
      obtain ⟨hfits1, hfits2, hsum⟩ := sumRepresentable_iff.mp hrepresentable
      have hboundary := (h hfits1 hfits2).mp hsum
      obtain ⟨-, hle1, hle2⟩ := min_scale scale1 scale2
      rw [if_pos ⟨⟨hfits1, fun hb ↦ hboundary (Or.inl hb)⟩,
        ⟨hfits2, fun hb ↦ hboundary (Or.inr hb)⟩⟩]
      refine ⟨rfl, rfl, ?_⟩
      rw [exact_lowered hle1, exact_lowered hle2, Scaled.value_add, exact, toInt_ofInt_of_fits hsum]
    · intro hnot
      apply if_neg
      rintro ⟨⟨hfits1, hboundary1⟩, hfits2, hboundary2⟩
      apply hnot
      refine sumRepresentable_iff.mpr ⟨hfits1, hfits2, (h hfits1 hfits2).mpr ?_⟩
      rintro (hboundary | hboundary)
      · exact hboundary1 hboundary
      · exact hboundary2 hboundary

/-- The sum of the largest value and one is the smallest one. -/
theorem sum_wraps :
    bsi32Add 2147483647 0 1 0 0 0 = (true, -2147483648, 0) ∧
      ¬ ExactSum 2147483647 0 1 0 0 0 (bsi32Add 2147483647 0 1 0 0 0) ∧
      ¬ ExactSum 214748364 1 0 0 0 0 (bsi32Add 214748364 1 0 0 0 0) := by
  have hmax : bsi32Add 2147483647 0 1 0 0 0 = (true, -2147483648, 0) := by decide
  refine ⟨hmax, ?_, ?_⟩
  · intro h
    have hnot : ¬ SumRepresentable 2147483647 0 1 0 :=
      fun hsum ↦ absurd (sumRepresentable_iff.mp hsum).2.2 (by decide)
    have hfalse := h.unchanged hnot
    rw [hmax] at hfalse
    exact absurd (congrArg Prod.fst hfalse) (by decide)
  · intro h
    have hsum : SumRepresentable 214748364 1 0 0 := sumRepresentable_iff.mpr (by decide)
    exact absurd (h.sum hsum).1 (by decide)

end FtyRest.Shared
