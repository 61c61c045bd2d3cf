import Mathlib.Algebra.Order.Floor.Div
import Mathlib.Data.Nat.Basic
import Mathlib.Tactic.Linarith

/-!
# Blocks of numbers with a common prefix

The numbers that agree with `n` in everything but the lowest `h` bits form a block: an interval
of `2 ^ h` numbers.  Two blocks are disjoint or nested, which is what longest prefix matching
rests on.
-/

namespace PrefixBlock

/-- `m` lies in the block of `n` with `h` free bits. -/
def Same (h m n : Nat) : Prop := m / 2 ^ h = n / 2 ^ h

instance (h m n : Nat) : Decidable (Same h m n) := inferInstanceAs (Decidable (_ = _))

/-- The lowest number of the block. -/
def lo (h n : Nat) : Nat := n / 2 ^ h * 2 ^ h

/-- The highest number of the block. -/
def hi (h n : Nat) : Nat := n / 2 ^ h * 2 ^ h + (2 ^ h - 1)

variable {h k m n p : Nat}

theorem Same.refl (h n : Nat) : Same h n n := rfl

theorem Same.symm (hs : Same h m n) : Same h n m := Eq.symm hs

theorem Same.trans (hs : Same h m n) (ht : Same h n p) : Same h m p := Eq.trans hs ht

theorem lo_le (h n : Nat) : lo h n ≤ n := Nat.div_mul_le_self n (2 ^ h)

theorem le_hi (h n : Nat) : n ≤ hi h n := by
  have hpos : 0 < 2 ^ h := Nat.two_pow_pos h
  have hlt := Nat.lt_div_mul_add hpos (a := n)
  unfold hi
  omega

theorem lo_le_hi (h n : Nat) : lo h n ≤ hi h n := (lo_le h n).trans (le_hi h n)

/-- A block is the interval between its lowest and its highest number. -/
theorem same_iff : Same h m n ↔ lo h n ≤ m ∧ m ≤ hi h n := by
  have hpos : 0 < 2 ^ h := Nat.two_pow_pos h
  unfold Same lo hi
  rw [Nat.div_eq_iff hpos]
  omega

theorem same_lo (h n : Nat) : Same h (lo h n) n := same_iff.mpr ⟨le_rfl, lo_le_hi h n⟩

theorem same_hi (h n : Nat) : Same h (hi h n) n := same_iff.mpr ⟨lo_le_hi h n, le_rfl⟩

theorem Same.lo_eq (hs : Same h m n) : lo h m = lo h n := by
  unfold lo
  rw [hs]

theorem Same.hi_eq (hs : Same h m n) : hi h m = hi h n := by
  unfold hi
  rw [hs]

/-- A larger block takes in the smaller ones it meets. -/
theorem Same.mono (hhk : h ≤ k) (hs : Same h m n) : Same k m n := by
  unfold Same at *
  rw [← Nat.add_sub_cancel' hhk, pow_add, ← Nat.div_div_eq_div_mul, ← Nat.div_div_eq_div_mul, hs]

theorem lo_le_lo (hhk : h ≤ k) (n : Nat) : lo k n ≤ lo h n :=
  (same_iff.mp ((same_lo h n).mono hhk)).1

theorem hi_le_hi (hhk : h ≤ k) (n : Nat) : hi h n ≤ hi k n :=
  (same_iff.mp ((same_hi h n).mono hhk)).2

/-- A block has no gaps. -/
theorem Same.between (hm : Same h m n) (hp : Same h p n) {x : Nat} (hmx : m ≤ x) (hxp : x ≤ p) :
    Same h x n :=
  same_iff.mpr ⟨(same_iff.mp hm).1.trans hmx, hxp.trans (same_iff.mp hp).2⟩

/-- The block stays below the power of two its numbers stay below. -/
theorem hi_lt {b : Nat} (hn : n < 2 ^ b) (hb : h ≤ b) : hi h n < 2 ^ b := by
  have hs : Same b (hi h n) n := (same_hi h n).mono hb
  unfold Same at hs
  rw [Nat.div_eq_of_lt hn, Nat.div_eq_zero_iff] at hs
  exact hs.resolve_left (Nat.two_pow_pos b).ne'

end PrefixBlock
