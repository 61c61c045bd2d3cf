import Mathlib.Data.Nat.Basic
import Mathlib.Data.List.Basic
import Mathlib.Order.Compare
import Mathlib.Tactic.Ring

/-!
# Numbers as byte strings in network order

The bytes of a number, most significant first, with the three loops that programs run over them:
the increment and the decrement, which walk from the last byte and stop at the first one that does
not carry, and the comparison, which walks from the first byte and stops at the first difference.
-/

namespace BigEndian

/-! ## Least significant byte first

The carry loops go over this order, so it is the one their proofs are about. -/

/-- The number with the given bytes, least significant first. -/
def ofLE : List UInt8 → Nat
  | [] => 0
  | b :: bs => b.toNat + 256 * ofLE bs

/-- The `w` lowest bytes of `n`, least significant first. -/
def toLE : Nat → Nat → List UInt8
  | 0, _ => []
  | w + 1, n => UInt8.ofNat n :: toLE w (n / 256)

/-- Increment the first byte, and go on to the next one while it wraps to `0`. -/
def incLE : List UInt8 → List UInt8
  | [] => []
  | b :: bs => if b + 1 ≠ 0 then (b + 1) :: bs else (b + 1) :: incLE bs

/-- Decrement the first byte, and go on to the next one while it wraps to `255`. -/
def decLE : List UInt8 → List UInt8
  | [] => []
  | b :: bs => if b - 1 ≠ 255 then (b - 1) :: bs else (b - 1) :: decLE bs

@[simp] theorem length_toLE (w n : Nat) : (toLE w n).length = w := by
  induction w generalizing n with
  | zero => rfl
  | succ w ih => simp [toLE, ih]

theorem ofLE_lt (bs : List UInt8) : ofLE bs < 256 ^ bs.length := by
  induction bs with
  | nil => simp [ofLE]
  | cons b bs ih =>
    have hb := b.toNat_lt
    rw [ofLE, List.length_cons, pow_succ]
    omega

theorem ofLE_toLE (w n : Nat) : ofLE (toLE w n) = n % 256 ^ w := by
  induction w generalizing n with
  | zero => simp [toLE, ofLE, Nat.mod_one]
  | succ w ih =>
    have hbyte : (UInt8.ofNat n).toNat = n % 256 := UInt8.toNat_ofNat'
    rw [toLE, ofLE, ih, hbyte, pow_succ', Nat.mod_mul]

private theorem toNat_add_one (b : UInt8) : (b + 1).toNat = (b.toNat + 1) % 256 := by
  simp [UInt8.toNat_add]

private theorem toNat_sub_one (b : UInt8) : (b - 1).toNat = (b.toNat + 255) % 256 := by
  simp [UInt8.toNat_sub, Nat.add_comm]

/-- The increment adds one, modulo the range of the byte string. -/
theorem ofLE_incLE (bs : List UInt8) : ofLE (incLE bs) = (ofLE bs + 1) % 256 ^ bs.length := by
  induction bs with
  | nil => simp [incLE, ofLE]
  | cons b bs ih =>
    have hb := b.toNat_lt
    have hlt := ofLE_lt bs
    have hone := toNat_add_one b
    rw [List.length_cons, pow_succ']
    unfold incLE
    split
    · rename_i hne
      have hne' : (b + 1).toNat ≠ 0 := fun h0 ↦ hne (UInt8.toNat_inj.mp h0)
      simp only [ofLE]
      rw [Nat.mod_eq_of_lt (by omega)]
      omega
    · rename_i heq
      have h0 : (b + 1).toNat = 0 := by rw [not_not.mp heq]; rfl
      have hb255 : b.toNat = 255 := by omega
      simp only [ofLE, ih, h0]
      rw [hb255, show 255 + 256 * ofLE bs + 1 = 256 * (ofLE bs + 1) by ring, Nat.mul_mod_mul_left]
      omega

/-- The decrement subtracts one, modulo the range of the byte string. -/
theorem ofLE_decLE (bs : List UInt8) :
    ofLE (decLE bs) = (ofLE bs + (256 ^ bs.length - 1)) % 256 ^ bs.length := by
  induction bs with
  | nil => simp [decLE, ofLE]
  | cons b bs ih =>
    have hb := b.toNat_lt
    have hlt := ofLE_lt bs
    have hone := toNat_sub_one b
    have hpos : 0 < 256 ^ bs.length := Nat.pow_pos (by decide)
    rw [List.length_cons, pow_succ']
    unfold decLE
    -- a borrow goes on to the next byte exactly when this one was 0
    split
    · rename_i hne
      have hne' : (b - 1).toNat ≠ 255 := fun h0 ↦ hne (UInt8.toNat_inj.mp h0)
      simp only [ofLE]
      rw [show b.toNat + 256 * ofLE bs + (256 * 256 ^ bs.length - 1) =
        (b.toNat + 256 * ofLE bs - 1) + 256 * 256 ^ bs.length by omega, Nat.add_mod_right,
        Nat.mod_eq_of_lt (by omega)]
      omega
    · rename_i heq
      have h255 : (b - 1).toNat = 255 := by rw [not_not.mp heq]; rfl
      have hb0 : b.toNat = 0 := by omega
      simp only [ofLE, ih, h255]
      rw [hb0, show 0 + 256 * ofLE bs + (256 * 256 ^ bs.length - 1) =
        255 + 256 * (ofLE bs + (256 ^ bs.length - 1)) by omega, Nat.mod_mul,
        Nat.add_mul_mod_self_left, Nat.add_mul_div_left _ _ (by decide : 0 < 256)]
      simp

/-! ## Network order -/

/-- The number with the given bytes, most significant first. -/
def ofBytes (bs : List UInt8) : Nat := ofLE bs.reverse

/-- The `w` lowest bytes of `n`, most significant first. -/
def toBytes (w n : Nat) : List UInt8 := (toLE w n).reverse

/-- `for (i = last; i >= 0; i--) { bytes[i]++; if (bytes[i] != 0) break; }` -/
def inc (bs : List UInt8) : List UInt8 := (incLE bs.reverse).reverse

/-- `for (i = last; i >= 0; i--) { bytes[i]--; if (bytes[i] != 255) break; }` -/
def dec (bs : List UInt8) : List UInt8 := (decLE bs.reverse).reverse

/-- The first difference decides; `0` when there is none. -/
def cmp : List UInt8 → List UInt8 → Int
  | a :: as, b :: bs => if a < b then -1 else if a > b then 1 else cmp as bs
  | _, _ => 0

@[simp] theorem length_toBytes (w n : Nat) : (toBytes w n).length = w := by simp [toBytes]

theorem ofBytes_lt (bs : List UInt8) : ofBytes bs < 256 ^ bs.length := by
  simpa [ofBytes] using ofLE_lt bs.reverse

theorem ofBytes_toBytes (w n : Nat) : ofBytes (toBytes w n) = n % 256 ^ w := by
  simp [ofBytes, toBytes, ofLE_toLE]

theorem ofBytes_inc (bs : List UInt8) : ofBytes (inc bs) = (ofBytes bs + 1) % 256 ^ bs.length := by
  simpa [ofBytes, inc] using ofLE_incLE bs.reverse

theorem ofBytes_dec (bs : List UInt8) :
    ofBytes (dec bs) = (ofBytes bs + (256 ^ bs.length - 1)) % 256 ^ bs.length := by
  simpa [ofBytes, dec] using ofLE_decLE bs.reverse

private theorem ofLE_append (as bs : List UInt8) :
    ofLE (as ++ bs) = ofLE as + 256 ^ as.length * ofLE bs := by
  induction as with
  | nil => simp [ofLE]
  | cons a as ih =>
    rw [List.cons_append, ofLE, ofLE, ih, List.length_cons, pow_succ]
    ring

theorem ofBytes_cons (b : UInt8) (bs : List UInt8) :
    ofBytes (b :: bs) = b.toNat * 256 ^ bs.length + ofBytes bs := by
  simp only [ofBytes, List.reverse_cons, ofLE_append, List.length_reverse, ofLE]
  ring

theorem any_ne_zero_iff (bs : List UInt8) : bs.any (· ≠ 0) = true ↔ ofBytes bs ≠ 0 := by
  induction bs with
  | nil => simp [ofBytes, ofLE]
  | cons b bs ih =>
    have hpos : 0 < 256 ^ bs.length := Nat.pow_pos (by decide)
    have hb : b = 0 ↔ b.toNat = 0 := (UInt8.toNat_inj (a := b) (b := 0)).symm
    rw [List.any_cons, Bool.or_eq_true, ih, ofBytes_cons, decide_eq_true_eq, ne_eq, hb]
    have hmul : b.toNat * 256 ^ bs.length = 0 ↔ b.toNat = 0 := by simp
    omega

/-- On strings of one length the first difference decides as the numbers do. -/
theorem cmp_eq (as bs : List UInt8) (hlen : as.length = bs.length) :
    cmp as bs = if ofBytes as < ofBytes bs then -1 else if ofBytes as > ofBytes bs then 1 else 0 := by
  induction as generalizing bs with
  | nil =>
    obtain rfl := List.length_eq_zero_iff.mp hlen.symm
    simp [cmp]
  | cons a as ih =>
    cases bs with
    | nil => simp at hlen
    | cons b bs =>
      simp only [List.length_cons, Nat.add_right_cancel_iff] at hlen
      have ha := ofBytes_lt as
      have hb := ofBytes_lt bs
      rw [hlen] at ha
      -- the first byte that differs outweighs all bytes behind it
      have hstep : ∀ x y : UInt8, x < y →
          x.toNat * 256 ^ bs.length + 256 ^ bs.length ≤ y.toNat * 256 ^ bs.length := by
        intro x y hxy
        have hxy' : x.toNat + 1 ≤ y.toNat := UInt8.lt_iff_toNat_lt.mp hxy
        calc x.toNat * 256 ^ bs.length + 256 ^ bs.length
            = (x.toNat + 1) * 256 ^ bs.length := by ring
          _ ≤ y.toNat * 256 ^ bs.length := Nat.mul_le_mul_right _ hxy'
      rw [cmp, ofBytes_cons, ofBytes_cons, hlen]
      by_cases hab : a < b
      · have := hstep a b hab
        rw [if_pos hab, if_pos (by omega)]
      · rw [if_neg hab]
        by_cases hba : a > b
        · have := hstep b a hba
          rw [if_pos hba, if_neg (by omega), if_pos (by omega)]
        · have heq : a = b := UInt8.le_antisymm (UInt8.not_lt.mp hba) (UInt8.not_lt.mp hab)
          subst heq
          rw [if_neg hba, ih bs hlen]
          simp only [Nat.add_lt_add_iff_left, gt_iff_lt]

end BigEndian
