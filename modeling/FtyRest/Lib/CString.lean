import Mathlib.Data.List.TakeWhile

/-!
# Texts that end at a NUL

Bytes up to a terminator, as `strlen`, `strcpy` and `printf` take them.
-/

structure CString where
  bytes : List UInt8
  noNul : 0 ∉ bytes
deriving DecidableEq

namespace CString

variable {memory : List UInt8} {s t : CString}

/-- The text that starts where the memory does. -/
def ofMemory (memory : List UInt8) : CString where
  bytes := memory.takeWhile fun b ↦ b ≠ 0
  noNul := fun h ↦ by simpa using List.mem_takeWhile_imp h

def ofAscii (text : String) : CString := ofMemory (text.toList.map fun c ↦ c.toNat.toUInt8)

def strlen (s : CString) : Nat := s.bytes.length

/-- The bytes that a copy writes. -/
def stored (s : CString) : List UInt8 := s.bytes ++ [0]

instance : Append CString where
  append s t := ⟨s.bytes ++ t.bytes, by
    rw [List.mem_append, not_or]
    exact ⟨s.noNul, t.noNul⟩⟩

/-- `%u` -/
def decimal (n : Nat) : CString where
  bytes := (Nat.toDigits 10 n).map fun c ↦ c.toNat.toUInt8
  noNul := by
    intro h
    obtain ⟨c, hc, hzero⟩ := List.mem_map.mp h
    have hdigit := Nat.isDigit_of_mem_toDigits (by decide) (by decide) hc
    simp only [Char.isDigit, Bool.and_eq_true, decide_eq_true_eq] at hdigit
    have hlow : 48 ≤ c.toNat := hdigit.1
    have hhigh : c.toNat ≤ 57 := hdigit.2
    have hmod := congrArg UInt8.toNat hzero
    rw [Nat.toUInt8_eq, UInt8.toNat_ofNat', Nat.mod_eq_of_lt (by omega)] at hmod
    change c.toNat = 0 at hmod
    omega

theorem strlen_stored : s.stored.length = s.strlen + 1 := List.length_append

theorem strlen_append : (s ++ t).strlen = s.strlen + t.strlen := List.length_append

theorem strlen_decimal {n : Nat} : (decimal n).strlen = (Nat.toDigits 10 n).length :=
  List.length_map _

/-- A cut text is as long as the text, up to where it is cut. -/
theorem strlen_ofMemory_take {n : Nat} :
    (ofMemory (memory.take n)).strlen = min n (ofMemory memory).strlen := by
  show ((memory.take n).takeWhile _).length = _
  rw [← List.take_takeWhile, List.length_take]
  rfl

theorem takeWhile_bytes : (s.bytes.takeWhile fun b ↦ b ≠ 0) = s.bytes := by
  apply List.takeWhile_eq_self_iff.mpr
  intro b hb
  exact decide_eq_true fun hzero ↦ s.noNul (hzero ▸ hb)

theorem ofMemory_bytes : ofMemory s.bytes = s := by
  simp only [ofMemory, takeWhile_bytes]

theorem ofMemory_stored : ofMemory s.stored = s := by
  have hwhole : (s.stored.takeWhile fun b ↦ b ≠ 0) = s.bytes := by
    rw [stored, List.takeWhile_append, takeWhile_bytes, if_pos rfl]
    exact List.append_nil s.bytes
  simp only [ofMemory, hwhole]

end CString
