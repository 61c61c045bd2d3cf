import Mathlib.Data.List.TakeWhile
import Mathlib.Algebra.Ring.Int.Defs
import Mathlib.Algebra.Ring.Nat

/-!
# `std::stoi`

The conversion of a text to an `int`: blanks, a sign and decimal digits are read from its
beginning, and it is told where the reading stopped.
-/

namespace Stoi

inductive Result where
  | ok (value : Int) (pos : Nat)
  | invalidArgument
  | outOfRange
deriving DecidableEq, Repr

/-- `isspace` in the C locale: the blank, and the controls from `\t` to `\r`. -/
def isSpace (c : Char) : Bool := c = ' ' || 9 ≤ c.toNat && c.toNat ≤ 13

/-- The sign, and what comes after it. -/
def readSign : List Char → Bool × List Char
  | '-' :: rest => (true, rest)
  | '+' :: rest => (false, rest)
  | rest => (false, rest)

def minInt : Int := -2 ^ 31

def maxInt : Int := 2 ^ 31 - 1

def stoi (text : String) : Result :=
  let (negative, rest) := readSign (text.toList.dropWhile isSpace)
  let digits := rest.takeWhile Char.isDigit
  if digits = [] then .invalidArgument
  else
    let magnitude : Int := Nat.ofDigitChars 10 digits 0
    let value := if negative then -magnitude else magnitude
    if minInt ≤ value ∧ value ≤ maxInt then
      .ok value (text.length - (rest.length - digits.length))
    else
      .outOfRange

/-- Below the capital letters nothing changes its case. -/
theorem toLower_of_lt {c : Char} (h : c.toNat < 65) : c.toLower = c := by
  apply dif_neg
  intro hupper
  have hA : (65 : Nat) ≤ c.toNat := UInt32.le_iff_toNat_le.mp hupper.1
  omega

theorem toLower_of_isDigit {c : Char} (h : c.isDigit = true) : c.toLower = c := by
  have hnine := (Char.isDigit_iff_toNat.mp h).2
  have hnineCode : '9'.toNat = 57 := rfl
  apply toLower_of_lt
  omega

/-! ## What is printed is read back -/

theorem isDigit_of_mem_toDigits {n : Nat} {c : Char} (h : c ∈ Nat.toDigits 10 n) :
    c.isDigit = true :=
  Nat.isDigit_of_mem_toDigits (by decide) (by decide) h

theorem readSign_toDigits (n : Nat) : readSign (Nat.toDigits 10 n) = (false, Nat.toDigits 10 n) := by
  cases hdigits : Nat.toDigits 10 n with
  | nil => rfl
  | cons c rest =>
    have hc : c.isDigit = true := isDigit_of_mem_toDigits (hdigits ▸ List.mem_cons_self)
    unfold readSign
    split
    · exact absurd hc (by simp_all)
    · exact absurd hc (by simp_all)
    · rfl

theorem takeWhile_toDigits (n : Nat) :
    (Nat.toDigits 10 n).takeWhile Char.isDigit = Nat.toDigits 10 n := by
  rw [List.takeWhile_eq_self_iff]
  intro c hc
  exact isDigit_of_mem_toDigits hc

theorem not_isSpace_of_lt {c : Char} (h : 32 < c.toNat) : isSpace c = false := by
  have hblank : c ≠ ' ' := by
    intro heq
    rw [heq] at h
    exact absurd h (by decide)
  have hcontrol : ¬ c.toNat ≤ 13 := by omega
  simp [isSpace, hblank, hcontrol]

theorem not_isSpace_of_isDigit {c : Char} (h : c.isDigit = true) : isSpace c = false := by
  apply not_isSpace_of_lt
  have hzero := (Char.isDigit_iff_toNat.mp h).1
  have hcode : '0'.toNat = 48 := rfl
  omega

theorem dropWhile_isSpace {c : Char} {text : List Char} (h : isSpace c = false) :
    (c :: text).dropWhile isSpace = c :: text := by
  rw [List.dropWhile_cons_of_neg (by rw [h]; decide)]

/-- A number that is printed, behind its sign. -/
theorem stoi_digits {text : String} {negative : Bool} {m : Nat}
    (hsign : readSign (text.toList.dropWhile isSpace) = (negative, Nat.toDigits 10 m))
    (hmin : minInt ≤ if negative then -(m : Int) else m)
    (hmax : (if negative then -(m : Int) else m) ≤ maxInt) :
    stoi text = .ok (if negative then -(m : Int) else m) text.length := by
  have hne : Nat.toDigits 10 m ≠ [] := Nat.toDigits_ne_nil
  unfold stoi
  rw [hsign]
  dsimp only
  rw [takeWhile_toDigits, if_neg hne, Nat.ofDigitChars_ten_toDigits, if_pos ⟨hmin, hmax⟩,
    Nat.sub_self, Nat.sub_zero]

theorem dropWhile_toDigits (m : Nat) :
    (Nat.toDigits 10 m).dropWhile isSpace = Nat.toDigits 10 m := by
  cases hdigits : Nat.toDigits 10 m with
  | nil => rfl
  | cons c rest =>
    apply dropWhile_isSpace
    apply not_isSpace_of_isDigit
    exact isDigit_of_mem_toDigits (hdigits ▸ List.mem_cons_self)

theorem toList_toString_ofNat (m : Nat) :
    (toString (Int.ofNat m)).toList = Nat.toDigits 10 m := by
  show (toString m).toList = _
  rw [Nat.toString_eq_repr, Nat.toList_repr]

/-- A number is known by its digits. -/
theorem toString_inj {m n : Nat} : toString m = toString n ↔ m = n := by
  constructor
  · intro h
    rw [Nat.toString_eq_repr, Nat.toString_eq_repr] at h
    have hdigits : Nat.toDigits 10 m = Nat.toDigits 10 n := by
      rw [← Nat.toList_repr, ← Nat.toList_repr, h]
    rw [← Nat.ofDigitChars_ten_toDigits (n := m), hdigits, Nat.ofDigitChars_ten_toDigits]
  · intro h
    rw [h]

theorem toList_toString_negSucc (m : Nat) :
    (toString (Int.negSucc m)).toList = '-' :: Nat.toDigits 10 (m + 1) := by
  show ("-" ++ Nat.repr (m + 1)).toList = _
  rw [String.toList_append, Nat.toList_repr]
  rfl

theorem stoi_toString {n : Int} (hmin : minInt ≤ n) (hmax : n ≤ maxInt) :
    stoi (toString n) = .ok n (toString n).length := by
  cases n with
  | ofNat m =>
    have hsign : readSign ((toString (Int.ofNat m)).toList.dropWhile isSpace) =
        (false, Nat.toDigits 10 m) := by
      rw [toList_toString_ofNat, dropWhile_toDigits, readSign_toDigits]
    exact stoi_digits hsign hmin hmax
  | negSucc m =>
    have hsign : readSign ((toString (Int.negSucc m)).toList.dropWhile isSpace) =
        (true, Nat.toDigits 10 (m + 1)) := by
      rw [toList_toString_negSucc, dropWhile_isSpace (by decide)]
      rfl
    exact stoi_digits hsign hmin hmax

example : stoi " +12" = .ok 12 4 := by decide
example : stoi "12 V" = .ok 12 2 := by decide
example : stoi "4294967296" = .outOfRange := by decide
example : stoi "V12" = .invalidArgument := by decide

end Stoi
