import FtyRest.Lib.HexDigits
import FtyRest.Shared.Bsi32
import Mathlib.Data.List.DropRight

/-!
# `utils::math::stobiosf`

A decimal text as an integer and a scale, from `shared/utilspp.cc`.  An `int64_t` that overflows
wraps around.
-/

namespace FtyRest.Shared

open Stoi Strtod

/-- The text before the point; all of it if there is no point. -/
def integerString (string : List Char) : List Char := string.takeWhile (· ≠ '.')

/-- The text behind the point, stripped of zeroes from right. -/
def fractionString (string : List Char) : List Char :=
  ((string.dropWhile (· ≠ '.')).drop 1).rdropWhile (· = '0')

/-- `sum = sum * 10`, once for each character of the fraction. -/
def timesTen : Nat → Int → Int
  | 0, sum => sum
  | n + 1, sum => timesTen n ((sum * 10).bmod (2 ^ 64))

/-- The integer and the scale. -/
def stobiosf (string : List Char) : Option (Int × Int) :=
  if string = [] then none
  else
    -- See if string is encoded double
    match stod string with
    | .invalidArgument | .outOfRange => none
    | .ok temp pos =>
        if pos ≠ string.length ∨ temp = .nan ∨ temp = .infinity then none
        else
          match stoi (.ofList (integerString string)) with
          | .ok integerPart _ =>
              if '.' ∉ string then some (integerPart, 0)
              else if fractionString string = [] then some (integerPart, 0)
              else
                let fractionSize := (fractionString string).length
                match stoi (.ofList (fractionString string)) with
                | .ok fractionPart _ =>
                    let sum := timesTen fractionSize integerPart
                    let minus := integerPart < 0
                    let sum :=
                      (if minus then sum - fractionPart else sum + fractionPart).bmod (2 ^ 64)
                    if sum > 2 ^ 31 - 1 then none
                    else if fractionSize - 1 > 2 ^ 7 - 1 then none
                    else some (sum.bmod (2 ^ 32), (-(fractionSize : Int)).bmod (2 ^ 8))
                | _ => none
          | _ => none

/-! ## What is to be proved of it -/

def Fits64 (n : Int) : Prop := -2 ^ 63 ≤ n ∧ n < 2 ^ 63

/-- The sum, without an overflow. -/
def exactSum (integerPart fractionPart : Int) (fractionSize : Nat) : Int :=
  integerPart * 10 ^ fractionSize + if integerPart < 0 then -fractionPart else fractionPart

/-- The integer and the scale are the number that the text is, and nothing overflows on the way. -/
structure BiosfExact (string : List Char) (integer scale : Int) : Prop where
  value : ∃ n pos, stod string = .ok (.number n) pos ∧ Scaled.value integer scale = n.value
  sums : ∀ integerPart fractionPart pos pos', fractionString string ≠ [] →
    stoi (.ofList (integerString string)) = .ok integerPart pos →
    stoi (.ofList (fractionString string)) = .ok fractionPart pos' →
    let fractionSize := (fractionString string).length
    (∀ i ≤ fractionSize, Fits64 (integerPart * 10 ^ i)) ∧
      Fits64 (exactSum integerPart fractionPart fractionSize) ∧
      -2 ^ 31 ≤ exactSum integerPart fractionPart fractionSize ∧
      exactSum integerPart fractionPart fractionSize < 2 ^ 31

/-! ## The sums -/

theorem bmod64_of_fits {n : Int} (h : Fits64 n) : n.bmod (2 ^ 64) = n := by
  unfold Fits64 at h
  apply Int.bmod_eq_of_le
  · omega
  · omega

theorem timesTen_of_fits {size : Nat} {sum : Int} (h : ∀ i ≤ size, Fits64 (sum * 10 ^ i)) :
    timesTen size sum = sum * 10 ^ size := by
  induction size generalizing sum with
  | zero => rw [timesTen, pow_zero, mul_one]
  | succ size ih =>
    have hten := h 1 (by omega)
    rw [pow_one] at hten
    have hrest : ∀ i ≤ size, Fits64 (sum * 10 * 10 ^ i) := by
      intro i hi
      have hnext := h (i + 1) (by omega)
      rwa [pow_succ', ← mul_assoc] at hnext
    rw [timesTen, bmod64_of_fits hten, ih hrest, pow_succ', ← mul_assoc]

/-- If the sum is in range, so is everything on the way to it. -/
theorem fits64_of_sum {integerPart fractionPart : Int} {size : Nat} (hfraction : 0 ≤ fractionPart)
    (hlow : -2 ^ 31 ≤ exactSum integerPart fractionPart size)
    (hhigh : exactSum integerPart fractionPart size < 2 ^ 63) (i : Nat) (hi : i ≤ size) :
    Fits64 (integerPart * 10 ^ i) := by
  have hpow : (10 : Int) ^ i ≤ 10 ^ size := pow_le_pow_right₀ (by decide) hi
  have hone : (0 : Int) < 10 ^ i := by positivity
  unfold exactSum at hlow hhigh
  unfold Fits64
  by_cases hneg : integerPart < 0
  · rw [if_pos hneg] at hlow
    have hmul : integerPart * 10 ^ size ≤ integerPart * 10 ^ i :=
      Int.mul_le_mul_of_nonpos_left hneg.le hpow
    have hnonpos : integerPart * 10 ^ i ≤ 0 := Int.mul_nonpos_of_nonpos_of_nonneg hneg.le hone.le
    omega
  · rw [if_neg hneg] at hhigh
    have hmul : integerPart * 10 ^ i ≤ integerPart * 10 ^ size :=
      Int.mul_le_mul_of_nonneg_left hpow (by omega)
    have hnonneg : 0 ≤ integerPart * 10 ^ i := Int.mul_nonneg (by omega) hone.le
    omega

/-- What is computed from the parts. -/
def computedSum (integerPart fractionPart : Int) (size : Nat) : Int :=
  (if integerPart < 0 then timesTen size integerPart - fractionPart
    else timesTen size integerPart + fractionPart).bmod (2 ^ 64)

theorem computedSum_eq {integerPart fractionPart : Int} {size : Nat}
    (hsteps : ∀ i ≤ size, Fits64 (integerPart * 10 ^ i))
    (hsum : Fits64 (exactSum integerPart fractionPart size)) :
    computedSum integerPart fractionPart size = exactSum integerPart fractionPart size := by
  unfold computedSum
  rw [timesTen_of_fits hsteps]
  unfold exactSum at hsum ⊢
  split
  · rw [if_pos ‹_›] at hsum
    rw [bmod64_of_fits]
    · omega
    · rwa [Int.sub_eq_add_neg]
  · rw [if_neg ‹_›] at hsum
    rw [bmod64_of_fits hsum]

/-! ## What is returned -/

/-- The text is read, up to its end, as a number, and so are the two parts of it. -/
structure Accepted (string : List Char) (n : Numeral) (integerPart : Int) : Prop where
  stod : ∃ pos, stod string = .ok (.number n) pos
  scan : scan string = some (.number n, [])
  integer : ∃ pos, stoi (.ofList (integerString string)) = .ok integerPart pos

theorem stod_number {string : List Char} {temp : Reading} {pos : Nat}
    (h : stod string = .ok temp pos) (hne : string ≠ [])
    (hpos : ¬ (pos ≠ string.length ∨ temp = .nan ∨ temp = .infinity)) :
    ∃ n, temp = .number n ∧ scan string = some (.number n, []) := by
  rw [not_or, not_or, not_not] at hpos
  obtain ⟨hlength, hnan, hinfinity⟩ := hpos
  unfold stod at h
  cases hscan : scan string with
  | none =>
    rw [hscan] at h
    exact absurd h (by simp)
  | some found =>
    obtain ⟨reading, rest⟩ := found
    rw [hscan] at h
    -- the whole text was read, so nothing is left behind the number
    have hempty {pos : Nat} (hat : string.length - rest.length = pos)
        (hend : pos = string.length) : rest = [] := by
      have hstring := List.length_pos_of_ne_nil hne
      apply List.length_eq_zero_iff.mp
      omega
    cases reading with
    | number n =>
      dsimp only at h
      split at h
      · exact absurd h (by simp)
      · cases h
        exact ⟨n, rfl, by rw [hempty rfl hlength]⟩
    | infinity =>
      cases h
      exact absurd rfl hinfinity
    | nan =>
      cases h
      exact absurd rfl hnan

theorem fractionString_of_noPoint {string : List Char} (h : '.' ∉ string) :
    fractionString string = [] := by
  have hcut : string.dropWhile (· ≠ '.') = [] := (cut_without_point h).2
  unfold fractionString
  rw [hcut]
  rfl

/-- The ways in which something is returned. -/
theorem stobiosf_eq_some {string : List Char} {integer scale : Int}
    (h : stobiosf string = some (integer, scale)) :
    ∃ n integerPart, Accepted string n integerPart ∧
      (fractionString string = [] ∧ integer = integerPart ∧ scale = 0 ∨
        fractionString string ≠ [] ∧ ∃ fractionPart pos,
          stoi (.ofList (fractionString string)) = .ok fractionPart pos ∧
          computedSum integerPart fractionPart (fractionString string).length ≤ 2 ^ 31 - 1 ∧
          integer =
            (computedSum integerPart fractionPart (fractionString string).length).bmod (2 ^ 32) ∧
          scale = -((fractionString string).length : Int)) := by
  unfold stobiosf at h
  by_cases hne : string = []
  · rw [if_pos hne] at h
    exact absurd h (by simp)
  rw [if_neg hne] at h
  cases hstod : stod string with
  | invalidArgument =>
    rw [hstod] at h
    exact absurd h (by simp)
  | outOfRange =>
    rw [hstod] at h
    exact absurd h (by simp)
  | ok temp pos =>
    rw [hstod] at h
    dsimp only at h
    by_cases hpos : pos ≠ string.length ∨ temp = .nan ∨ temp = .infinity
    · rw [if_pos hpos] at h
      exact absurd h (by simp)
    rw [if_neg hpos] at h
    obtain ⟨n, rfl, hscan⟩ := stod_number hstod hne hpos
    cases hinteger : stoi (.ofList (integerString string)) with
    | invalidArgument =>
      rw [hinteger] at h
      exact absurd h (by simp)
    | outOfRange =>
      rw [hinteger] at h
      exact absurd h (by simp)
    | ok integerPart pos' =>
      rw [hinteger] at h
      dsimp only at h
      refine ⟨n, integerPart, ⟨⟨pos, hstod⟩, hscan, ⟨pos', hinteger⟩⟩, ?_⟩
      -- without a point, or with nothing behind it, the number is an integer
      by_cases hpoint : '.' ∉ string
      · rw [if_pos hpoint] at h
        cases h
        exact .inl ⟨fractionString_of_noPoint hpoint, rfl, rfl⟩
      rw [if_neg hpoint] at h
      by_cases hempty : fractionString string = []
      · rw [if_pos hempty] at h
        cases h
        exact .inl ⟨hempty, rfl, rfl⟩
      rw [if_neg hempty] at h
      refine .inr ⟨hempty, ?_⟩
      cases hfraction : stoi (.ofList (fractionString string)) with
      | invalidArgument =>
        rw [hfraction] at h
        exact absurd h (by simp)
      | outOfRange =>
        rw [hfraction] at h
        exact absurd h (by simp)
      | ok fractionPart pos'' =>
        rw [hfraction] at h
        dsimp only at h
        change (if computedSum integerPart fractionPart (fractionString string).length >
          2 ^ 31 - 1 then _ else _) = _ at h
        split at h
        · exact absurd h (by simp)
        split at h
        · exact absurd h (by simp)
        · obtain ⟨hinteger', hscale⟩ := Prod.mk.inj (Option.some.inj h)
          refine ⟨fractionPart, pos'', rfl, by omega, hinteger'.symm, ?_⟩
          rw [← hscale]
          -- the scale passed the check on its range, so the cast keeps it
          apply Int.bmod_eq_of_le
          · omega
          · omega

/-! ## How the parts are read -/

/-- The integer before the point: of a hexadecimal number only the zero before its `x`. -/
def readInteger (n : Numeral) : Int := if n.hex then 0 else Strtol.signed n.negative n.whole

/-- What is read as the fraction: all that is behind the point, without zeroes at its end. -/
def readFraction (n : Numeral) : List Char :=
  if n.point then (n.fraction ++ n.exponent).rdropWhile (· = '0') else []

def readFractionPart (n : Numeral) : Nat :=
  digitsValue 10 ((readFraction n).takeWhile Char.isDigit)

/-- The integer that the parts give. -/
def readSum (n : Numeral) : Int :=
  exactSum (readInteger n) (readFractionPart n) (readFraction n).length

/-- The beginning of a hexadecimal number has no point. -/
theorem noPoint_hex {x : Char} (hx : x.toLower = 'x') : '.' ∉ ['0', x] := by
  intro hmem
  rcases List.mem_cons.mp hmem with hzero | hmem
  · exact absurd hzero (by decide)
  · rw [← List.mem_singleton.mp hmem] at hx
    exact absurd hx (by decide)

theorem fractionString_eq {string : List Char} {n : Numeral}
    (h : scan string = some (.number n, [])) : fractionString string = readFraction n := by
  obtain ⟨-, hlegal, htext⟩ := scan_number_nil h
  have hcut : fromPoint string =
      if n.point then '.' :: (n.fraction ++ n.exponent) else [] := by
    rw [← fromPoint_sign]
    rcases htext with ⟨-, htext⟩ | ⟨-, x, hx, htext⟩
    · rw [htext]
      exact (hlegal.cut_text [] List.not_mem_nil).2
    · rw [htext]
      exact (hlegal.cut_text ['0', x] (noPoint_hex hx)).2
  show ((fromPoint string).drop 1).rdropWhile (· = '0') = readFraction n
  rw [hcut, readFraction]
  cases n.point with
  | true => rfl
  | false => rfl

theorem integerPart_eq {string : List Char} {n : Numeral} {integerPart : Int}
    (h : Accepted string n integerPart) :
    integerPart = readInteger n := by
  obtain ⟨hneg, hlegal, htext⟩ := scan_number_nil h.scan
  obtain ⟨pos, hinteger⟩ := h.integer
  obtain ⟨rest, hscan, -⟩ := Strtol.scan_of_stoi hinteger
  change Strtol.scan (beforePoint string) = some (integerPart, rest) at hscan
  rw [Strtol.scan_eq, beforePoint_sign] at hscan
  dsimp only at hscan
  -- `stoi` reads a decimal number up to the point, and of a hexadecimal one only the 0
  rcases htext with ⟨hdecimal, htext⟩ | ⟨hhex, x, hx, htext⟩
  · have hbefore := (hlegal.cut_text [] List.not_mem_nil).1
    rw [List.nil_append] at hbefore
    rw [htext, hbefore, List.nil_append, hlegal.takeWhile_whole hdecimal, ← hneg] at hscan
    have hvalue : readInteger n = Strtol.signed n.negative n.whole := by
      rw [readInteger, hdecimal]
      rfl
    split at hscan
    · exact absurd hscan (by simp)
    · rw [hvalue]
      exact (Prod.mk.inj (Option.some.inj hscan)).1.symm
  · have hletter : ¬ x.isDigit = true := by
      intro hdigit
      rw [toLower_of_isDigit hdigit] at hx
      rw [hx] at hdigit
      exact absurd hdigit (by decide)
    have hbefore := (hlegal.cut_text ['0', x] (noPoint_hex hx)).1
    rw [List.cons_append, List.cons_append, List.nil_append] at hbefore
    rw [htext, hbefore, List.cons_append, List.cons_append, List.nil_append,
      List.takeWhile_cons_of_pos (by decide), List.takeWhile_cons_of_neg hletter,
      if_neg (List.cons_ne_nil _ _)] at hscan
    have hvalue : readInteger n = 0 := by
      rw [readInteger, hhex]
      rfl
    rw [hvalue, ← (Prod.mk.inj (Option.some.inj hscan)).1]
    cases (readSign (string.dropWhile isSpace)).1 <;> rfl

/-- The digits at the beginning of the fraction are read. -/
theorem fractionPart_eq {n : Numeral} (hlegal : n.Legal) {fractionPart : Int} {pos : Nat}
    (h : stoi (.ofList (readFraction n)) = .ok fractionPart pos) :
    fractionPart = readFractionPart n := by
  obtain ⟨rest, hscan, -⟩ := Strtol.scan_of_stoi h
  have hdigits : ∀ c ∈ (readFraction n).takeWhile Char.isDigit, c.isDigit = true :=
    fun c hc ↦ List.mem_takeWhile_imp hc
  -- the fraction starts with a digit or the letter of the exponent, never with a sign
  have hsign : readSign ((readFraction n).dropWhile isSpace) = (false, readFraction n) := by
    cases hread : readFraction n with
    | nil => rfl
    | cons c tail =>
      have hbegins : c :: tail <+: n.fraction ++ n.exponent := by
        rw [← hread, readFraction]
        split
        · exact List.rdropWhile_prefix _ _
        · exact List.nil_prefix
      have hc : isDigitOf n.hex c = true ∨ isExponent n.hex c = true := by
        obtain ⟨more, hmore⟩ := hbegins
        cases hfraction : n.fraction with
        | nil =>
          rw [hfraction, List.nil_append] at hmore
          rcases hlegal.exponent with hnil | ⟨letter, rest, hexp, hletter, -⟩
          · rw [hnil] at hmore
            exact absurd hmore (by simp)
          · rw [hexp] at hmore
            rw [(List.cons.inj hmore).1]
            exact .inr hletter
        | cons d digits =>
          rw [hfraction] at hmore
          rw [(List.cons.inj hmore).1]
          exact .inl (hlegal.fraction d (by simp [hfraction]))
      have hcode := le_toNat hc
      have hminus : c ≠ '-' := by
        rintro rfl
        exact absurd hcode (by decide)
      have hplus : c ≠ '+' := by
        rintro rfl
        exact absurd hcode (by decide)
      rw [dropWhile_isSpace (not_isSpace_of_lt (by omega)), readSign_other hminus hplus]
  rw [Strtol.scan_eq, hsign] at hscan
  dsimp only at hscan
  split at hscan
  · exact absurd hscan (by simp)
  · rw [readFractionPart, digitsValue_ten hdigits]
    exact (Prod.mk.inj (Option.some.inj hscan)).1.symm

/-- What is returned is exact if the sum of the parts is the number and stays in range. -/
theorem exact_iff_sum {string : List Char} {integer scale : Int}
    (h : stobiosf string = some (integer, scale)) :
    ∃ n integerPart, Accepted string n integerPart ∧
      (BiosfExact string integer scale ↔
        n.value = Scaled.value (readSum n) (-((readFraction n).length : Int)) ∧
          -2 ^ 31 ≤ readSum n ∧ readSum n < 2 ^ 63) := by
  obtain ⟨n, integerPart, haccepted, hreturned⟩ := stobiosf_eq_some h
  refine ⟨n, integerPart, haccepted, ?_⟩
  obtain ⟨pos, hstod⟩ := haccepted.stod
  obtain ⟨-, hlegal, -⟩ := scan_number_nil haccepted.scan
  have hintegerPart := integerPart_eq haccepted
  obtain ⟨pos', hinteger⟩ := haccepted.integer
  obtain ⟨-, -, hmin, hmax⟩ := Strtol.scan_of_stoi hinteger
  have hread := fractionString_eq haccepted.scan
  have hvalue : (∃ m pos, stod string = .ok (.number m) pos ∧
      Scaled.value integer scale = m.value) ↔ Scaled.value integer scale = n.value := by
    constructor
    · rintro ⟨m, pos'', hm, hmvalue⟩
      cases hstod.symm.trans hm
      exact hmvalue
    · exact fun hn ↦ ⟨n, pos, hstod, hn⟩
  rcases hreturned with ⟨hempty, rfl, rfl⟩ | ⟨hne, fractionPart, pos'', hfraction, hle, hint, hsc⟩
  · -- without a fraction the integer part is returned as it is
    rw [hread] at hempty
    have hsum : readSum n = integer := by
      rw [readSum, readFractionPart, hempty, hintegerPart]
      simp [exactSum, digitsValue]
    rw [hsum, hempty]
    constructor
    · intro hexact
      refine ⟨(hvalue.mp hexact.value).symm, ?_, ?_⟩
      · exact hmin
      · unfold maxInt at hmax
        omega
    · rintro ⟨hn, -⟩
      refine ⟨hvalue.mpr hn.symm, fun _ _ _ _ hne ↦ ?_⟩
      exact absurd (hread.trans hempty) hne
  · -- with a fraction the sum is cut to 32 bits, which changes nothing of a sum in range
    have hstoi := hfraction
    rw [hread] at hstoi
    have hfractionPart := fractionPart_eq hlegal hstoi
    have hsum : exactSum integerPart fractionPart (fractionString string).length = readSum n := by
      rw [readSum, hread, hintegerPart, hfractionPart]
    rw [← hsum, ← hread, ← hsc]
    have hnonneg : 0 ≤ fractionPart := by
      rw [hfractionPart]
      exact Int.natCast_nonneg _
    generalize hexactSum : exactSum integerPart fractionPart (fractionString string).length = sum
    have hself (hlow : -2 ^ 31 ≤ sum) (hhigh : sum < 2 ^ 31) : sum.bmod (2 ^ 32) = sum := by
      apply Int.bmod_eq_of_le
      · omega
      · omega
    constructor
    · intro hexact
      obtain ⟨hsteps, hsum64, hlow, hhigh⟩ :=
        hexact.sums integerPart fractionPart pos' pos'' hne hinteger hfraction
      rw [computedSum_eq hsteps hsum64, hexactSum] at hint
      rw [hexactSum] at hlow hhigh
      rw [hself hlow hhigh] at hint
      refine ⟨?_, hlow, by omega⟩
      rw [← hint]
      exact (hvalue.mp hexact.value).symm
    · rintro ⟨hn, hlow, hhigh⟩
      have hsteps := fits64_of_sum hnonneg (hexactSum.symm ▸ hlow) (hexactSum.symm ▸ hhigh)
      have hsum64 : Fits64 (exactSum integerPart fractionPart (fractionString string).length) := by
        rw [hexactSum]
        exact ⟨by omega, hhigh⟩
      rw [computedSum_eq hsteps hsum64, hexactSum] at hle hint
      rw [hself hlow (by omega)] at hint
      refine ⟨hvalue.mpr (by rw [hint]; exact hn.symm), ?_⟩
      intro integerPart' fractionPart' _ _ _ hinteger' hfraction'
      cases hinteger.symm.trans hinteger'
      cases hfraction.symm.trans hfraction'
      refine ⟨hsteps, hsum64, ?_, ?_⟩
      · rw [hexactSum]
        exact hlow
      · rw [hexactSum]
        omega

end FtyRest.Shared
