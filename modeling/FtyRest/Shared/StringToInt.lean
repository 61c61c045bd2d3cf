import FtyRest.Lib.Strtol

/-!
# `string_to_*`

The conversions of a text to the integers of eight types, from `shared/utils.cc`.  A `long` has 64
bits.
-/

namespace FtyRest.Shared

/-- `errno`, which is set to zero first. -/
inductive Errno where
  | zero
  | inval
  | range
deriving DecidableEq, Repr

/-- `strtoll`, and `strtol`; where there are no digits nothing is read and no error is set. -/
def strtoll (text : List Char) : Errno × Int × List Char :=
  match Strtol.scan text with
  | none => (.zero, 0, text)
  | some (n, rest) =>
      if n < -2 ^ 63 then (.range, -2 ^ 63, rest)
      else if n > 2 ^ 63 - 1 then (.range, 2 ^ 63 - 1, rest)
      else (.zero, n, rest)

/-- `strtoull`, and `strtoul`: a negative integer is taken modulo `2 ^ 64`. -/
def strtoull (text : List Char) : Errno × Int × List Char :=
  match Strtol.scan text with
  | none => (.zero, 0, text)
  | some (n, rest) =>
      if n.natAbs ≥ 2 ^ 64 then (.range, 2 ^ 64 - 1, rest)
      else (.zero, n % 2 ^ 64, rest)

/-- The four conversions that read a text: what is read is cast to the type, and `max` says that
there is an error.  `none` is `NULL`. -/
def stringTo (read : List Char → Errno × Int × List Char) (cast : Int → Int) (max : Int)
    (value : Option String) : Errno × Int :=
  match value with
  | none => (.inval, max)
  | some text =>
      let (errno, result, rest) := read text.toList
      let errno := if rest ≠ [] then .inval else errno
      if errno ≠ .zero then (errno, max) else (errno, cast result)

def stringToInt64 : Option String → Errno × Int := stringTo strtoll id (2 ^ 63 - 1)

def stringToInt32 : Option String → Errno × Int := stringTo strtoll (·.bmod (2 ^ 32)) (2 ^ 31 - 1)

def stringToUint64 : Option String → Errno × Int := stringTo strtoull id (2 ^ 64 - 1)

def stringToUint32 : Option String → Errno × Int := stringTo strtoull (· % 2 ^ 32) (2 ^ 32 - 1)

/-- The signed conversions that go through another one. -/
def narrowSigned (wide : Errno × Int) (min max : Int) : Errno × Int :=
  let (errno, result) := wide
  if result > max ∨ result < min then (.inval, max) else (errno, result)

def narrowUnsigned (wide : Errno × Int) (max : Int) : Errno × Int :=
  let (errno, result) := wide
  if result > max then (.inval, max) else (errno, result)

def stringToInt16 (value : Option String) : Errno × Int :=
  narrowSigned (stringToInt32 value) (-2 ^ 15) (2 ^ 15 - 1)

def stringToUint16 (value : Option String) : Errno × Int :=
  narrowUnsigned (stringToUint32 value) (2 ^ 16 - 1)

def stringToInt8 (value : Option String) : Errno × Int :=
  narrowSigned (stringToInt32 value) (-2 ^ 7) (2 ^ 7 - 1)

def stringToUint8 (value : Option String) : Errno × Int :=
  narrowUnsigned (stringToUint32 value) (2 ^ 8 - 1)

/-! ## The eight types -/

inductive IntType where
  | int64
  | int32
  | int16
  | int8
  | uint64
  | uint32
  | uint16
  | uint8
deriving DecidableEq, Repr

namespace IntType

def convert : IntType → Option String → Errno × Int
  | int64 => stringToInt64
  | int32 => stringToInt32
  | int16 => stringToInt16
  | int8 => stringToInt8
  | uint64 => stringToUint64
  | uint32 => stringToUint32
  | uint16 => stringToUint16
  | uint8 => stringToUint8

def min : IntType → Int
  | int64 => -2 ^ 63
  | int32 => -2 ^ 31
  | int16 => -2 ^ 15
  | int8 => -2 ^ 7
  | uint64 | uint32 | uint16 | uint8 => 0

def max : IntType → Int
  | int64 => 2 ^ 63 - 1
  | int32 => 2 ^ 31 - 1
  | int16 => 2 ^ 15 - 1
  | int8 => 2 ^ 7 - 1
  | uint64 => 2 ^ 64 - 1
  | uint32 => 2 ^ 32 - 1
  | uint16 => 2 ^ 16 - 1
  | uint8 => 2 ^ 8 - 1

/-- What `strtoll` or `strtoull` reads without an error. -/
def Readable : IntType → Int → Prop
  | int64, n | int32, n | int16, n | int8, n => -2 ^ 63 ≤ n ∧ n ≤ 2 ^ 63 - 1
  | uint64, n | uint32, n | uint16, n | uint8, n => n.natAbs < 2 ^ 64

/-- What an integer becomes by the casts on its way. -/
def reduced : IntType → Int → Int
  | int64, n => n
  | int32, n | int16, n | int8, n => n.bmod (2 ^ 32)
  | uint64, n => n % 2 ^ 64
  | uint32, n | uint16, n | uint8, n => n % 2 ^ 32

/-- An integer that is converted without an error. -/
def Accepted (t : IntType) (n : Int) : Prop :=
  t.Readable n ∧ t.min ≤ t.reduced n ∧ t.reduced n ≤ t.max

end IntType

/-! ## What is converted without an error -/

theorem ne_nil_of_scan {text rest : List Char} {n : Int}
    (h : Strtol.scan text = some (n, rest)) : text ≠ [] := by
  rintro rfl
  have hnone : Strtol.scan [] = none := rfl
  rw [hnone] at h
  exact absurd h (by simp)

theorem strtoll_whole {text : List Char} {r : Int} : strtoll text = (.zero, r, []) ↔
    (text = [] ∧ r = 0) ∨
      ∃ n, Strtol.scan text = some (n, []) ∧ (-2 ^ 63 ≤ n ∧ n ≤ 2 ^ 63 - 1) ∧ r = n := by
  unfold strtoll
  cases hscan : Strtol.scan text with
  -- nothing is read, so all of the text is left: it is whole only when it is empty
  | none =>
    simp only [Prod.mk.injEq, true_and, reduceCtorEq, false_and, exists_false, or_false]
    exact ⟨fun h ↦ ⟨h.2, h.1.symm⟩, fun h ↦ ⟨h.2.symm, h.1⟩⟩
  | some p =>
    obtain ⟨n, rest⟩ := p
    have hne := ne_nil_of_scan hscan
    dsimp only
    by_cases hlow : n < -2 ^ 63
    · rw [if_pos hlow]
      simp [hne]
      omega
    · by_cases hhigh : n > 2 ^ 63 - 1
      · rw [if_neg hlow, if_pos hhigh]
        simp [hne]
        omega
      · rw [if_neg hlow, if_neg hhigh]
        simp [hne]
        omega

theorem strtoull_whole {text : List Char} {r : Int} : strtoull text = (.zero, r, []) ↔
    (text = [] ∧ r = 0) ∨
      ∃ n, Strtol.scan text = some (n, []) ∧ n.natAbs < 2 ^ 64 ∧ r = n % 2 ^ 64 := by
  unfold strtoull
  cases hscan : Strtol.scan text with
  | none =>
    simp only [Prod.mk.injEq, true_and, reduceCtorEq, false_and, exists_false, or_false]
    exact ⟨fun h ↦ ⟨h.2, h.1.symm⟩, fun h ↦ ⟨h.2.symm, h.1⟩⟩
  | some p =>
    obtain ⟨n, rest⟩ := p
    have hne := ne_nil_of_scan hscan
    dsimp only
    by_cases hlarge : n.natAbs ≥ 2 ^ 64
    · rw [if_pos hlarge]
      simp [hne]
      omega
    · rw [if_neg hlarge]
      simp only [Prod.mk.injEq, true_and, hne, false_and, false_or, Option.some.injEq]
      constructor
      · rintro ⟨rfl, rfl⟩
        exact ⟨n, ⟨rfl, rfl⟩, Nat.lt_of_not_le hlarge, rfl⟩
      · rintro ⟨_, ⟨rfl, rfl⟩, -, rfl⟩
        exact ⟨rfl, rfl⟩

section

variable {read : List Char → Errno × Int × List Char} {cast : Int → Int} {max : Int}

/-- There is no error when all of the text is read. -/
theorem stringTo_zero {text : String} {m : Int} :
    stringTo read cast max (some text) = (.zero, m) ↔
      ∃ r, read text.toList = (.zero, r, []) ∧ m = cast r := by
  rcases hread : read text.toList with ⟨errno, result, rest⟩
  simp only [stringTo, hread]
  by_cases hrest : rest = []
  · rw [if_neg (not_not.mpr hrest)]
    by_cases herrno : errno = .zero
    · rw [if_neg (not_not.mpr herrno)]
      simp [hrest, herrno]
      exact eq_comm
    · rw [if_pos herrno]
      simp [herrno]
  · rw [if_pos hrest]
    simp [hrest]

theorem stringTo_error {text : String}
    (h : ∀ m, stringTo read cast max (some text) ≠ (.zero, m)) :
    (stringTo read cast max (some text)).1 ≠ .zero ∧
      (stringTo read cast max (some text)).2 = max := by
  rcases hread : read text.toList with ⟨errno, result, rest⟩
  simp only [stringTo, hread] at h ⊢
  by_cases herrno : (if rest ≠ [] then Errno.inval else errno) ≠ .zero
  · rw [if_pos herrno]
    exact ⟨herrno, rfl⟩
  · rw [if_neg herrno] at h
    exact absurd (by rw [not_not.mp herrno]) (h (cast result))

end

theorem narrowSigned_zero {wide : Errno × Int} {min max m : Int} :
    narrowSigned wide min max = (.zero, m) ↔ wide = (.zero, m) ∧ min ≤ m ∧ m ≤ max := by
  obtain ⟨errno, result⟩ := wide
  unfold narrowSigned
  dsimp only
  split
  · simp
    omega
  · simp
    omega

theorem narrowUnsigned_zero {wide : Errno × Int} {max m : Int} :
    narrowUnsigned wide max = (.zero, m) ↔ wide = (.zero, m) ∧ m ≤ max := by
  obtain ⟨errno, result⟩ := wide
  unfold narrowUnsigned
  dsimp only
  split
  · simp
    omega
  · simp
    omega

/-- An error of the wider conversion is one of the narrow conversion, by its value. -/
theorem narrowSigned_error {wide : Errno × Int} {min max : Int}
    (hwide : wide.1 ≠ .zero → wide.2 > max) (h : ∀ m, narrowSigned wide min max ≠ (.zero, m)) :
    (narrowSigned wide min max).1 ≠ .zero ∧ (narrowSigned wide min max).2 = max := by
  obtain ⟨errno, result⟩ := wide
  unfold narrowSigned at h ⊢
  dsimp only at h hwide ⊢
  -- the value of a wider error is out of the range, so it is an error here too
  by_cases hrange : result > max ∨ result < min
  · rw [if_pos hrange]
    exact ⟨by simp, rfl⟩
  · rw [if_neg hrange] at h
    by_cases herrno : errno = .zero
    · exact absurd (by rw [herrno]) (h result)
    · exact absurd (Or.inl (hwide herrno)) hrange

theorem narrowUnsigned_error {wide : Errno × Int} {max : Int}
    (hwide : wide.1 ≠ .zero → wide.2 > max) (h : ∀ m, narrowUnsigned wide max ≠ (.zero, m)) :
    (narrowUnsigned wide max).1 ≠ .zero ∧ (narrowUnsigned wide max).2 = max := by
  obtain ⟨errno, result⟩ := wide
  unfold narrowUnsigned at h ⊢
  dsimp only at h hwide ⊢
  by_cases hrange : result > max
  · rw [if_pos hrange]
    exact ⟨by simp, rfl⟩
  · rw [if_neg hrange] at h
    by_cases herrno : errno = .zero
    · exact absurd (by rw [herrno]) (h result)
    · exact absurd (hwide herrno) hrange

namespace IntType

/-- What is converted: the empty text, and a text that is read as a whole as an accepted integer. -/
def Converted (t : IntType) (text : String) (m : Int) : Prop :=
  (text = "" ∧ m = 0) ∨
    ∃ n, Strtol.scan text.toList = some (n, []) ∧ t.Accepted n ∧ m = t.reduced n

variable {text : String} {cast : Int → Int} {max m : Int}

/-- A text is converted to the cast of what the wide function reads of it. -/
theorem stringTo_whole {strto : List Char → Errno × Int × List Char} {range : Int → Prop}
    {wide : Int → Int}
    (h : ∀ result, strto text.toList = (.zero, result, []) ↔
      (text.toList = [] ∧ result = 0) ∨
        ∃ n, Strtol.scan text.toList = some (n, []) ∧ range n ∧ result = wide n) :
    stringTo strto cast max (some text) = (.zero, m) ↔
      (text = "" ∧ m = cast 0) ∨
        ∃ n, Strtol.scan text.toList = some (n, []) ∧ range n ∧ m = cast (wide n) := by
  simp only [stringTo_zero, h, String.toList_eq_nil_iff]
  constructor
  · rintro ⟨_, ⟨hempty, rfl⟩ | ⟨n, hscan, hrange, rfl⟩, rfl⟩
    · exact Or.inl ⟨hempty, rfl⟩
    · exact Or.inr ⟨_, hscan, hrange, rfl⟩
  · rintro (⟨hempty, rfl⟩ | ⟨n, hscan, hrange, rfl⟩)
    · exact ⟨0, Or.inl ⟨hempty, rfl⟩, rfl⟩
    · exact ⟨_, Or.inr ⟨n, hscan, hrange, rfl⟩, rfl⟩

theorem stringTo_strtoll : stringTo strtoll cast max (some text) = (.zero, m) ↔
    (text = "" ∧ m = cast 0) ∨
      ∃ n, Strtol.scan text.toList = some (n, []) ∧ (-2 ^ 63 ≤ n ∧ n ≤ 2 ^ 63 - 1) ∧
        m = cast n := by
  exact stringTo_whole (fun _ ↦ strtoll_whole)

theorem stringTo_strtoull : stringTo strtoull cast max (some text) = (.zero, m) ↔
    (text = "" ∧ m = cast 0) ∨
      ∃ n, Strtol.scan text.toList = some (n, []) ∧ n.natAbs < 2 ^ 64 ∧
        m = cast (n % 2 ^ 64) := by
  exact stringTo_whole (fun _ ↦ strtoull_whole)

/-- The cast to `int32_t` gives what `int32_t` can hold. -/
theorem bmod_range (n : Int) : -2 ^ 31 ≤ n.bmod (2 ^ 32) ∧ n.bmod (2 ^ 32) ≤ 2 ^ 31 - 1 := by
  have hlow : -((2 ^ 32 : Nat) : Int) / 2 ≤ n.bmod (2 ^ 32) := Int.le_bmod (by decide)
  have hhigh : n.bmod (2 ^ 32) < (((2 ^ 32 : Nat) : Int) + 1) / 2 := Int.bmod_lt (by decide)
  omega

theorem bmod_spec (n : Int) : ∃ k, n.bmod (2 ^ 32) = n - 2 ^ 32 * k ∧
    -2 ^ 31 ≤ n.bmod (2 ^ 32) ∧ n.bmod (2 ^ 32) < 2 ^ 31 := by
  have hrange := bmod_range n
  refine ⟨n.bdiv (2 ^ 32), Int.bmod_eq_self_sub_mul_bdiv n (2 ^ 32), hrange.1, ?_⟩
  omega

theorem bmod_eq_self (n : Int) : n.bmod (2 ^ 32) = n ↔ -2 ^ 31 ≤ n ∧ n < 2 ^ 31 := by
  obtain ⟨k, hk, hlow, hhigh⟩ := bmod_spec n
  omega

theorem int32_zero : stringToInt32 (some text) = (.zero, m) ↔ int32.Converted text m := by
  simp only [stringToInt32, stringTo_strtoll, Converted, Accepted, Readable, IntType.min, IntType.max,
    reduced, bmod_range, and_true]
  rfl

theorem uint32_zero : stringToUint32 (some text) = (.zero, m) ↔ uint32.Converted text m := by
  have hrange (n : Int) : 0 ≤ n % 2 ^ 32 ∧ n % 2 ^ 32 ≤ 2 ^ 32 - 1 := by omega
  have hcast (n : Int) : n % 2 ^ 64 % 2 ^ 32 = n % 2 ^ 32 := by omega
  simp only [stringToUint32, stringTo_strtoull, Converted, Accepted, Readable, IntType.min,
    IntType.max, reduced, hrange, hcast, and_true]
  rfl

/-- A type that is converted through another one takes what is in its own range. -/
theorem converted_narrow (t wide : IntType) (hreadable : t.Readable = wide.Readable)
    (hreduced : t.reduced = wide.reduced) (hmin : wide.min ≤ t.min) (hmax : t.max ≤ wide.max)
    (hzero : t.min ≤ 0 ∧ 0 ≤ t.max) :
    t.Converted text m ↔ wide.Converted text m ∧ t.min ≤ m ∧ m ≤ t.max := by
  unfold Converted Accepted
  rw [hreadable, hreduced]
  constructor
  · rintro (⟨hempty, rfl⟩ | ⟨n, hscan, ⟨hread, hlow, hhigh⟩, rfl⟩)
    · exact ⟨Or.inl ⟨hempty, rfl⟩, hzero⟩
    · exact ⟨Or.inr ⟨n, hscan, ⟨hread, by omega, by omega⟩, rfl⟩, hlow, hhigh⟩
  · rintro ⟨⟨hempty, rfl⟩ | ⟨n, hscan, ⟨hread, -⟩, rfl⟩, hlow, hhigh⟩
    · exact Or.inl ⟨hempty, rfl⟩
    · exact Or.inr ⟨n, hscan, ⟨hread, hlow, hhigh⟩, rfl⟩

theorem uint32_nonneg (h : uint32.Converted text m) : 0 ≤ m := by
  rcases h with ⟨-, rfl⟩ | ⟨n, -, ⟨-, hlow, -⟩, rfl⟩
  · exact Int.le_refl 0
  · exact hlow

theorem convert_zero (t : IntType) :
    t.convert (some text) = (.zero, m) ↔ t.Converted text m := by
  cases t with
  | int64 =>
    show stringTo strtoll id _ (some text) = (.zero, m) ↔ _
    simp only [stringTo_strtoll, Converted, Accepted, Readable, IntType.min, IntType.max, reduced, id,
      and_self]
  | int32 => exact int32_zero
  -- the narrow ones go through 32 bits, and check the result once more
  | int16 =>
    show narrowSigned (stringToInt32 (some text)) _ _ = (.zero, m) ↔ _
    rw [narrowSigned_zero, int32_zero]
    exact (converted_narrow int16 int32 rfl rfl (by decide) (by decide) (by decide)).symm
  | int8 =>
    show narrowSigned (stringToInt32 (some text)) _ _ = (.zero, m) ↔ _
    rw [narrowSigned_zero, int32_zero]
    exact (converted_narrow int8 int32 rfl rfl (by decide) (by decide) (by decide)).symm
  | uint64 =>
    have hrange (n : Int) : 0 ≤ n % 2 ^ 64 ∧ n % 2 ^ 64 ≤ 2 ^ 64 - 1 := by omega
    show stringTo strtoull id _ (some text) = (.zero, m) ↔ _
    simp only [stringTo_strtoull, Converted, Accepted, Readable, IntType.min, IntType.max, reduced, id,
      hrange, and_true]
  | uint32 => exact uint32_zero
  | uint16 =>
    show narrowUnsigned (stringToUint32 (some text)) _ = (.zero, m) ↔ _
    rw [narrowUnsigned_zero, uint32_zero,
      converted_narrow uint16 uint32 rfl rfl (by decide) (by decide) (by decide)]
    exact ⟨fun h ↦ ⟨h.1, uint32_nonneg h.1, h.2⟩, fun h ↦ ⟨h.1, h.2.2⟩⟩
  | uint8 =>
    show narrowUnsigned (stringToUint32 (some text)) _ = (.zero, m) ↔ _
    rw [narrowUnsigned_zero, uint32_zero,
      converted_narrow uint8 uint32 rfl rfl (by decide) (by decide) (by decide)]
    exact ⟨fun h ↦ ⟨h.1, uint32_nonneg h.1, h.2⟩, fun h ↦ ⟨h.1, h.2.2⟩⟩

theorem stringTo_value {read : List Char → Errno × Int × List Char}
    (h : (stringTo read cast max (some text)).1 ≠ .zero) :
    (stringTo read cast max (some text)).2 = max := by
  refine (stringTo_error fun m hm ↦ h ?_).2
  rw [hm]

theorem int32_value (h : (stringToInt32 (some text)).1 ≠ .zero) :
    (stringToInt32 (some text)).2 = 2 ^ 31 - 1 := by
  unfold stringToInt32 at h ⊢
  exact stringTo_value h

theorem uint32_value (h : (stringToUint32 (some text)).1 ≠ .zero) :
    (stringToUint32 (some text)).2 = 2 ^ 32 - 1 := by
  unfold stringToUint32 at h ⊢
  exact stringTo_value h

/-- A text that is not converted leaves an error and the largest value. -/
theorem convert_error (t : IntType) (h : ∀ m, t.convert (some text) ≠ (.zero, m)) :
    (t.convert (some text)).1 ≠ .zero ∧ (t.convert (some text)).2 = t.max := by
  cases t with
  | int64 =>
    unfold convert stringToInt64 at h ⊢
    exact stringTo_error h
  | int32 =>
    unfold convert stringToInt32 at h ⊢
    exact stringTo_error h
  | int16 =>
    unfold convert stringToInt16 at h ⊢
    refine narrowSigned_error (fun herror ↦ ?_) h
    rw [int32_value herror]
    decide
  | int8 =>
    unfold convert stringToInt8 at h ⊢
    refine narrowSigned_error (fun herror ↦ ?_) h
    rw [int32_value herror]
    decide
  | uint64 =>
    unfold convert stringToUint64 at h ⊢
    exact stringTo_error h
  | uint32 =>
    unfold convert stringToUint32 at h ⊢
    exact stringTo_error h
  | uint16 =>
    unfold convert stringToUint16 at h ⊢
    refine narrowUnsigned_error (fun herror ↦ ?_) h
    rw [uint32_value herror]
    decide
  | uint8 =>
    unfold convert stringToUint8 at h ⊢
    refine narrowUnsigned_error (fun herror ↦ ?_) h
    rw [uint32_value herror]
    decide

/-! ## Exactness -/

theorem accepted_of_range {t : IntType} {n : Int} (hlow : t.min ≤ n) (hhigh : n ≤ t.max) :
    t.Accepted n ∧ t.reduced n = n := by
  have hbmod {k : Nat} (hk : k = 31 ∨ k = 15 ∨ k = 7) (hlow : -2 ^ k ≤ n) (hhigh : n ≤ 2 ^ k - 1) :
      n.bmod (2 ^ 32) = n := by
    apply Int.bmod_eq_of_le
    · rcases hk with rfl | rfl | rfl <;> omega
    · rcases hk with rfl | rfl | rfl <;> omega
  have hreduced : t.Readable n ∧ t.reduced n = n := by
    cases t <;> simp only [IntType.min, IntType.max] at hlow hhigh <;>
      simp only [Readable, reduced]
    · exact ⟨⟨hlow, hhigh⟩, trivial⟩
    · exact ⟨by omega, hbmod (by decide) hlow hhigh⟩
    · exact ⟨by omega, hbmod (by decide) hlow hhigh⟩
    · exact ⟨by omega, hbmod (by decide) hlow hhigh⟩
    · omega
    · omega
    · omega
    · omega
  refine ⟨⟨hreduced.1, ?_⟩, hreduced.2⟩
  rw [hreduced.2]
  exact ⟨hlow, hhigh⟩

/-- The text is a decimal integer in the range of the type. -/
def InRange (t : IntType) (text : String) (n : Int) : Prop :=
  Strtol.decimal text.toList = some n ∧ t.min ≤ n ∧ n ≤ t.max

/-- An integer in the range is converted to its value, and any other text is an error. -/
structure ExactConversion (t : IntType) (text : String) : Prop where
  value : ∀ n, t.InRange text n → t.convert (some text) = (.zero, n)
  error : (¬ ∃ n, t.InRange text n) →
    (t.convert (some text)).1 ≠ .zero ∧ (t.convert (some text)).2 = t.max

/-- The empty text, blanks in front, and an integer that gets into the range by the casts are
converted as well. -/
theorem convert_exact_iff (t : IntType) (text : String) :
    t.ExactConversion text ↔
      text ≠ "" ∧ ∀ n, Strtol.decimal (text.toList.dropWhile Stoi.isSpace) = some n →
        t.Accepted n →
          text.toList.dropWhile Stoi.isSpace = text.toList ∧ t.min ≤ n ∧ n ≤ t.max := by
  constructor
  · intro h
    -- what is converted is an integer in the range
    have hrange {m : Int} (hconverted : t.Converted text m) : ∃ n, t.InRange text n := by
      by_contra hnone
      have herror := (h.error hnone).1
      rw [t.convert_zero.mpr hconverted] at herror
      exact herror rfl
    constructor
    · rintro rfl
      obtain ⟨n, hn, -⟩ := hrange (Or.inl ⟨rfl, rfl⟩)
      have hnone : Strtol.decimal "".toList = none := rfl
      exact absurd (hnone.symm.trans hn) (by simp)
    · intro n hn haccepted
      -- an accepted integer is converted, blanks in front or not, so it has to be in the range
      obtain ⟨n', hn', hlow, hhigh⟩ :=
        hrange (Or.inr ⟨n, Strtol.scan_eq_some_nil.mpr hn, haccepted, rfl⟩)
      have hdrop := Strtol.dropWhile_of_decimal hn'
      rw [hdrop, hn'] at hn
      obtain rfl := Option.some.inj hn
      exact ⟨hdrop, hlow, hhigh⟩
  · rintro ⟨hne, h⟩
    constructor
    · rintro n ⟨hn, hlow, hhigh⟩
      obtain ⟨haccepted, hreduced⟩ := accepted_of_range hlow hhigh
      exact t.convert_zero.mpr
        (Or.inr ⟨n, Strtol.scan_of_decimal hn, haccepted, hreduced.symm⟩)
    · intro hnone
      apply t.convert_error
      intro m hm
      rcases t.convert_zero.mp hm with ⟨hempty, -⟩ | ⟨n, hscan, haccepted, -⟩
      · exact hne hempty
      · have hn := Strtol.scan_eq_some_nil.mp hscan
        obtain ⟨hdrop, hlow, hhigh⟩ := h n hn haccepted
        rw [hdrop] at hn
        exact hnone ⟨n, hn, hlow, hhigh⟩

/-- An integer outside of the range that is converted. -/
theorem not_exact_of_value {t : IntType} {text : String} {n m : Int}
    (hn : Strtol.decimal text.toList = some n) (hout : n < t.min ∨ t.max < n)
    (hm : t.convert (some text) = (.zero, m)) : ¬ t.ExactConversion text := by
  intro h
  have hnone : ¬ ∃ n, t.InRange text n := by
    rintro ⟨n', hn', hlow, hhigh⟩
    obtain rfl : n = n' := Option.some.inj (hn.symm.trans hn')
    omega
  have herror := (h.error hnone).1
  rw [hm] at herror
  exact herror rfl

/-- `2 ^ 32 + 1` is one, and `1 - 2 ^ 32` is one without a sign. -/
theorem converted_by_casts :
    int32.convert (some "4294967297") = (.zero, 1) ∧ ¬ int32.ExactConversion "4294967297" ∧
      uint8.convert (some "-4294967295") = (.zero, 1) ∧ ¬ uint8.ExactConversion "-4294967295" := by
  have hint32 : int32.convert (some "4294967297") = (.zero, 1) := by decide +kernel
  have huint8 : uint8.convert (some "-4294967295") = (.zero, 1) := by decide +kernel
  exact ⟨hint32, not_exact_of_value (n := 4294967297) (by decide +kernel) (by decide) hint32,
    huint8, not_exact_of_value (n := -4294967295) (by decide +kernel) (by decide) huint8⟩

end IntType

end FtyRest.Shared
