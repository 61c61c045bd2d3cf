import FtyRest.Lib.Strtol
import Mathlib.Algebra.Field.Rat
import Mathlib.Algebra.Order.Field.Rat
import Mathlib.Tactic.Ring
import Mathlib.Tactic.NormNum

/-!
# `std::stod`

The conversion of a text to a `double`: the number that stands at the beginning of the text, not
rounded, and where the reading stopped.
-/

namespace Strtod

open Stoi

/-- A decimal or a hexadecimal number as it is written.  The exponent has its letter and its sign
in front; it is empty if there is none. -/
structure Numeral where
  negative : Bool
  hex : Bool
  whole : List Char
  point : Bool
  fraction : List Char
  exponent : List Char
deriving DecidableEq, Repr

inductive Reading where
  | number (n : Numeral)
  | infinity
  | nan
deriving DecidableEq, Repr

def isHexDigit (c : Char) : Bool := c.isDigit || "abcdef".toList.contains c.toLower

def isDigitOf (hex : Bool) : Char → Bool := if hex then isHexDigit else Char.isDigit

/-- The letter of an exponent. -/
def isExponent (hex : Bool) (c : Char) : Bool := c.toLower = if hex then 'p' else 'e'

def readPoint : List Char → Bool × List Char
  | '.' :: rest => (true, rest)
  | rest => (false, rest)

/-- What is left behind the exponent, if there is one. -/
def behindExponent (hex : Bool) : List Char → Option (List Char)
  | [] => none
  | c :: rest =>
      let digits := (readSign rest).2
      if isExponent hex c ∧ digits.takeWhile Char.isDigit ≠ [] then
        some (digits.dropWhile Char.isDigit)
      else none

/-- The number behind its sign, and behind `0x` if it is hexadecimal. -/
def scanNumber (negative hex : Bool) (text : List Char) : Option (Numeral × List Char) :=
  let whole := text.takeWhile (isDigitOf hex)
  let (point, rest) := readPoint (text.dropWhile (isDigitOf hex))
  let fraction := rest.takeWhile (isDigitOf hex)
  let rest := rest.dropWhile (isDigitOf hex)
  if whole = [] ∧ fraction = [] then none
  else
    match behindExponent hex rest with
    | none => some (⟨negative, hex, whole, point, fraction, []⟩, rest)
    | some behind =>
        let exponent := rest.take (rest.length - behind.length)
        some (⟨negative, hex, whole, point, fraction, exponent⟩, behind)

def hexDigits : List Char → Option (List Char)
  | '0' :: x :: digits => if x.toLower = 'x' then some digits else none
  | _ => none

/-- What is left behind `nan`: a sequence of characters in parentheses belongs to it. -/
def behindNan (text : List Char) : List Char :=
  match text with
  | '(' :: rest =>
      match rest.dropWhile fun c ↦ c.isAlphanum || c = '_' with
      | ')' :: behind => behind
      | _ => text
  | _ => text

def startsWith (word : String) (text : List Char) : Bool :=
  (text.take word.length).map Char.toLower = word.toList

/-- The number at the beginning of a text, and what is left of the text behind it. -/
def scan (text : List Char) : Option (Reading × List Char) :=
  let (negative, rest) := readSign (text.dropWhile isSpace)
  if startsWith "infinity" rest then some (.infinity, rest.drop 8)
  else if startsWith "inf" rest then some (.infinity, rest.drop 3)
  else if startsWith "nan" rest then some (.nan, behindNan (rest.drop 3))
  else
    let number :=
      match (hexDigits rest).bind (scanNumber negative true) with
      -- `0x` without digits is a zero
      | none => scanNumber negative false rest
      | hexadecimal => hexadecimal
    number.map fun (n, behind) ↦ (.number n, behind)

/-! ## Values -/

def digitValue (c : Char) : Nat := if c.isDigit then c.toNat - 48 else c.toLower.toNat - 87

def digitsValue (base : Nat) (digits : List Char) : Nat :=
  digits.foldl (fun n c ↦ base * n + digitValue c) 0

namespace Numeral

def base (n : Numeral) : Nat := if n.hex then 16 else 10

def exponentValue (n : Numeral) : Int :=
  match n.exponent with
  | [] => 0
  | _ :: rest => Strtol.signed (readSign rest).1 (readSign rest).2

/-- The number without its sign. -/
def magnitude (n : Numeral) : ℚ :=
  digitsValue n.base (n.whole ++ n.fraction) * (n.base : ℚ) ^ (-(n.fraction.length : ℤ)) *
    (if n.hex then 2 else 10) ^ n.exponentValue

def value (n : Numeral) : ℚ := if n.negative then -n.magnitude else n.magnitude

end Numeral

/-- `strtod` sets `errno` to `ERANGE`: the number is rounded to an infinity, or it is too small for
a normalized number and has to be rounded. -/
def erange (v : ℚ) : Bool :=
  2 ^ 1024 - 2 ^ 970 ≤ |v| || v ≠ 0 && |v| < 2 ^ (-1022 : ℤ) - 2 ^ (-1076 : ℤ) &&
    (v * 2 ^ 1074).den ≠ 1

inductive Result where
  | ok (reading : Reading) (pos : Nat)
  | invalidArgument
  | outOfRange
deriving DecidableEq, Repr

def stod (text : List Char) : Result :=
  match scan text with
  | none => .invalidArgument
  | some (reading, rest) =>
      let pos := text.length - rest.length
      match reading with
      | .number n => if erange n.value then .outOfRange else .ok reading pos
      | _ => .ok reading pos

/-! ## Whole texts -/

/-- What the reading finds, and it finds nothing else. -/
structure Numeral.Legal (n : Numeral) : Prop where
  whole : ∀ c ∈ n.whole, isDigitOf n.hex c = true
  fraction : ∀ c ∈ n.fraction, isDigitOf n.hex c = true
  digits : ¬ (n.whole = [] ∧ n.fraction = [])
  point : n.point = false → n.fraction = []
  exponent : n.exponent = [] ∨ ∃ c rest, n.exponent = c :: rest ∧ isExponent n.hex c = true ∧
    (readSign rest).2 ≠ [] ∧ ∀ d ∈ (readSign rest).2, d.isDigit = true

/-- How a number is written behind its sign, and behind `0x`. -/
def Numeral.text (n : Numeral) : List Char :=
  n.whole ++ ((if n.point then ['.'] else []) ++ (n.fraction ++ n.exponent))

theorem readPoint_eq (text : List Char) :
    text = (if (readPoint text).1 then ['.'] else []) ++ (readPoint text).2 := by
  unfold readPoint
  split <;> rfl

theorem readPoint_false {text : List Char} (h : (readPoint text).1 = false) :
    (readPoint text).2 = text := by
  unfold readPoint at h ⊢
  split
  · exact absurd h (by simp)
  · rfl

theorem takeWhile_dropWhile {α : Type} (p : α → Bool) (l : List α) :
    (l.dropWhile p).takeWhile p = [] := by
  cases h : l.dropWhile p with
  | nil => rfl
  | cons a rest =>
    have hne : l.dropWhile p ≠ [] := by simp [h]
    have ha := List.head_dropWhile_not p hne
    simp only [h, List.head_cons] at ha
    exact List.takeWhile_cons_of_neg (by simp [ha])

/-- An exponent with nothing behind it. -/
theorem behindExponent_nil {hex : Bool} {text : List Char}
    (h : behindExponent hex text = some []) :
    ∃ c rest, text = c :: rest ∧ isExponent hex c = true ∧ (readSign rest).2 ≠ [] ∧
      ∀ d ∈ (readSign rest).2, d.isDigit = true := by
  unfold behindExponent at h
  cases text with
  | nil => exact absurd h (by simp)
  | cons c rest =>
    dsimp only at h
    by_cases hexp : isExponent hex c = true ∧ (readSign rest).2.takeWhile Char.isDigit ≠ []
    · rw [if_pos hexp] at h
      refine ⟨c, rest, rfl, hexp.1, ?_, List.dropWhile_eq_nil_iff.mp (Option.some.inj h)⟩
      intro hnil
      exact hexp.2 (by rw [hnil]; rfl)
    · rw [if_neg hexp] at h
      exact absurd h (by simp)

theorem scanNumber_nil {negative hex : Bool} {text : List Char} {n : Numeral}
    (h : scanNumber negative hex text = some (n, [])) :
    n.negative = negative ∧ n.hex = hex ∧ text = n.text ∧ n.Legal := by
  unfold scanNumber at h
  have hwhole : ∀ c ∈ text.takeWhile (isDigitOf hex), isDigitOf hex c = true :=
    fun c hc ↦ List.mem_takeWhile_imp hc
  have htext : text = text.takeWhile (isDigitOf hex) ++ text.dropWhile (isDigitOf hex) :=
    List.takeWhile_append_dropWhile.symm
  have hpoint := readPoint_eq (text.dropWhile (isDigitOf hex))
  have hnoPoint : (readPoint (text.dropWhile (isDigitOf hex))).1 = false →
      (readPoint (text.dropWhile (isDigitOf hex))).2.takeWhile (isDigitOf hex) = [] := by
    intro hfalse
    rw [readPoint_false hfalse]
    exact takeWhile_dropWhile _ _
  generalize text.takeWhile (isDigitOf hex) = whole at h hwhole htext
  generalize text.dropWhile (isDigitOf hex) = behind at h htext hpoint hnoPoint
  generalize readPoint behind = read at h hpoint hnoPoint
  obtain ⟨point, rest⟩ := read
  dsimp only at h hpoint hnoPoint
  have hfraction : ∀ c ∈ rest.takeWhile (isDigitOf hex), isDigitOf hex c = true :=
    fun c hc ↦ List.mem_takeWhile_imp hc
  have hrest : rest = rest.takeWhile (isDigitOf hex) ++ rest.dropWhile (isDigitOf hex) :=
    List.takeWhile_append_dropWhile.symm
  generalize rest.takeWhile (isDigitOf hex) = fraction at h hfraction hrest hnoPoint
  generalize rest.dropWhile (isDigitOf hex) = last at h hrest
  by_cases hdigits : whole = [] ∧ fraction = []
  · rw [if_pos hdigits] at h
    exact absurd h (by simp)
  · rw [if_neg hdigits] at h
    cases hexp : behindExponent hex last with
    | none =>
      rw [hexp] at h
      obtain ⟨rfl, rfl⟩ := Prod.mk.inj (Option.some.inj h)
      refine ⟨rfl, rfl, ?_, hwhole, hfraction, hdigits, hnoPoint, .inl rfl⟩
      rw [htext, hpoint, hrest]
      rfl
    | some left =>
      -- nothing is left, so all that follows the fraction is the exponent
      rw [hexp] at h
      obtain ⟨rfl, rfl⟩ := Prod.mk.inj (Option.some.inj h)
      have hall : last.take (last.length - 0) = last := List.take_length
      refine ⟨rfl, rfl, ?_, hwhole, hfraction, hdigits, hnoPoint, .inr ?_⟩
      · rw [htext, hpoint, hrest]
        show _ = whole ++ (_ ++ (fraction ++ last.take (last.length - 0)))
        rw [hall]
      · obtain ⟨c, tail, hlast, hletter, hne, hd⟩ := behindExponent_nil hexp
        exact ⟨c, tail, hall.trans hlast, hletter, hne, hd⟩

theorem hexDigits_eq {text digits : List Char} (h : hexDigits text = some digits) :
    ∃ x, x.toLower = 'x' ∧ text = '0' :: x :: digits := by
  unfold hexDigits at h
  split at h
  · split at h
    · cases h
      exact ⟨_, ‹_›, rfl⟩
    · exact absurd h (by simp)
  · exact absurd h (by simp)

/-- A text that is a number as a whole, behind its blanks and its sign. -/
theorem scan_number_nil {text : List Char} {n : Numeral}
    (h : scan text = some (.number n, [])) :
    n.negative = (readSign (text.dropWhile isSpace)).1 ∧ n.Legal ∧
      (n.hex = false ∧ (readSign (text.dropWhile isSpace)).2 = n.text ∨
        n.hex = true ∧ ∃ x, x.toLower = 'x' ∧
          (readSign (text.dropWhile isSpace)).2 = '0' :: x :: n.text) := by
  unfold scan at h
  generalize readSign (text.dropWhile isSpace) = sign at h
  obtain ⟨negative, rest⟩ := sign
  dsimp only at h
  -- nothing to read, `inf` and `nan` give no number
  split at h
  · exact absurd h (by simp)
  split at h
  · exact absurd h (by simp)
  split at h
  · exact absurd h (by simp)
  obtain ⟨⟨m, behind⟩, hm, heq⟩ := Option.map_eq_some_iff.mp h
  obtain ⟨hread, rfl⟩ := Prod.mk.inj heq
  cases hread
  -- `0x` is the start of a hexadecimal number only when digits follow
  cases hhex : (hexDigits rest).bind (scanNumber negative true) with
  | none =>
    rw [hhex] at hm
    obtain ⟨hneg, hbase, htext, hlegal⟩ := scanNumber_nil hm
    exact ⟨hneg, hlegal, .inl ⟨hbase, htext⟩⟩
  | some hexadecimal =>
    rw [hhex] at hm
    cases hm
    obtain ⟨digits, hdigits, hscan⟩ := Option.bind_eq_some_iff.mp hhex
    obtain ⟨x, hx, hrest⟩ := hexDigits_eq hdigits
    obtain ⟨hneg, hbase, htext, hlegal⟩ := scanNumber_nil hscan
    refine ⟨hneg, hlegal, .inr ⟨hbase, x, hx, ?_⟩⟩
    rw [hrest, htext]

/-! ## Cutting at the point -/

/-- A blank or a sign is neither a digit nor a letter. -/
theorem le_toNat {hex : Bool} {c : Char}
    (h : isDigitOf hex c = true ∨ isExponent hex c = true) : 48 ≤ c.toNat := by
  have hzero : '0'.toNat = 48 := rfl
  by_contra hlt
  have hlower : c.toLower = c := toLower_of_lt (by omega)
  have hdigit : ¬ c.isDigit = true := fun hd ↦ hlt ((Char.isDigit_iff_toNat.mp hd).1)
  rcases h with h | h
  · cases hex with
    | false => exact hdigit h
    | true =>
      have hletter : c ∈ "abcdef".toList := by
        have hhex : isHexDigit c = true := h
        unfold isHexDigit at hhex
        rw [Bool.or_eq_true, or_iff_right hdigit, hlower, List.contains_iff_mem] at hhex
        exact hhex
      have hletters : "abcdef".toList = ['a', 'b', 'c', 'd', 'e', 'f'] := rfl
      rw [hletters] at hletter
      simp only [List.mem_cons, List.not_mem_nil, or_false] at hletter
      rcases hletter with rfl | rfl | rfl | rfl | rfl | rfl <;> exact hlt (by decide)
  · unfold isExponent at h
    rw [decide_eq_true_iff, hlower] at h
    rw [h] at hlt
    cases hex <;> exact hlt (by decide)

/-- The letter of an exponent is no digit. -/
theorem not_isDigit_of_isExponent {hex : Bool} {c : Char} (h : isExponent hex c = true) :
    c.isDigit = false := by
  by_contra hdigit
  rw [Bool.not_eq_false] at hdigit
  unfold isExponent at h
  rw [decide_eq_true_iff, toLower_of_isDigit hdigit] at h
  rw [h] at hdigit
  cases hex <;> exact absurd hdigit (by decide)

theorem ne_point_of_isDigit {c : Char} (h : c.isDigit = true) : c ≠ '.' := by
  rintro rfl
  exact absurd h (by decide)

theorem ne_point_of_isDigitOf {hex : Bool} {c : Char} (h : isDigitOf hex c = true) : c ≠ '.' := by
  rintro rfl
  cases hex <;> exact absurd h (by decide)

theorem ne_point_of_isExponent {hex : Bool} {c : Char} (h : isExponent hex c = true) :
    c ≠ '.' := by
  rintro rfl
  cases hex <;> exact absurd h (by decide)

theorem readSign_mem {text : List Char} {c : Char} (h : c ∈ text) :
    c = '-' ∨ c = '+' ∨ c ∈ (readSign text).2 := by
  unfold readSign
  split
  · rcases List.mem_cons.mp h with h | h
    · exact .inl h
    · exact .inr (.inr h)
  · rcases List.mem_cons.mp h with h | h
    · exact .inr (.inl h)
    · exact .inr (.inr h)
  · exact .inr (.inr h)

theorem Numeral.Legal.exponent_noPoint {n : Numeral} (h : n.Legal) : '.' ∉ n.exponent := by
  rcases h.exponent with hnil | ⟨c, rest, hexp, hletter, -, hdigits⟩
  · rw [hnil]
    exact List.not_mem_nil
  · rw [hexp]
    intro hmem
    rcases List.mem_cons.mp hmem with hc | hmem
    · exact ne_point_of_isExponent hletter hc.symm
    · rcases readSign_mem hmem with hc | hc | hc
      · exact absurd hc (by decide)
      · exact absurd hc (by decide)
      · exact ne_point_of_isDigit (hdigits _ hc) rfl

variable {p q : Char → Bool}

/-- A reading that stops behind another one may skip first what that one skips. -/
theorem dropWhile_takeWhile (h : ∀ c, p c = true → q c = true) (l : List Char) :
    (l.takeWhile q).dropWhile p = (l.dropWhile p).takeWhile q := by
  induction l with
  | nil => rfl
  | cons c l ih =>
    by_cases hp : p c = true
    · rw [List.takeWhile_cons_of_pos (h c hp), List.dropWhile_cons_of_pos hp,
        List.dropWhile_cons_of_pos hp, ih]
    · rw [List.dropWhile_cons_of_neg hp]
      by_cases hq : q c = true
      · rw [List.takeWhile_cons_of_pos hq, List.dropWhile_cons_of_neg hp]
      · rw [List.takeWhile_cons_of_neg hq]
        rfl

theorem dropWhile_dropWhile (h : ∀ c, p c = true → q c = true) (l : List Char) :
    (l.dropWhile p).dropWhile q = l.dropWhile q := by
  induction l with
  | nil => rfl
  | cons c l ih =>
    by_cases hp : p c = true
    · rw [List.dropWhile_cons_of_pos hp, List.dropWhile_cons_of_pos (h c hp), ih]
    · rw [List.dropWhile_cons_of_neg hp]

theorem readSign_other {c : Char} (hminus : c ≠ '-') (hplus : c ≠ '+') (l : List Char) :
    readSign (c :: l) = (false, c :: l) := by
  unfold readSign
  split
  · next heq => exact absurd (List.cons.inj heq).1 hminus
  · next heq => exact absurd (List.cons.inj heq).1 hplus
  · rfl

theorem readSign_takeWhile (hminus : p '-' = true) (hplus : p '+' = true) (l : List Char) :
    readSign (l.takeWhile p) = ((readSign l).1, (readSign l).2.takeWhile p) := by
  cases l with
  | nil => rfl
  | cons c l =>
    by_cases hcm : c = '-'
    · rw [hcm, List.takeWhile_cons_of_pos hminus]
      rfl
    · by_cases hcp : c = '+'
      · rw [hcp, List.takeWhile_cons_of_pos hplus]
        rfl
      · rw [readSign_other hcm hcp]
        by_cases hc : p c = true
        · rw [List.takeWhile_cons_of_pos hc, readSign_other hcm hcp]
        · rw [List.takeWhile_cons_of_neg hc]
          rfl

theorem dropWhile_readSign (hminus : p '-' = true) (hplus : p '+' = true) (l : List Char) :
    (readSign l).2.dropWhile p = l.dropWhile p := by
  unfold readSign
  split
  · rw [List.dropWhile_cons_of_pos hminus]
  · rw [List.dropWhile_cons_of_pos hplus]
  · rfl

/-! What stands before the point of a number, and what stands behind it. -/

/-- The text up to its point. -/
def beforePoint (text : List Char) : List Char := text.takeWhile (· ≠ '.')

/-- The text from its point on. -/
def fromPoint (text : List Char) : List Char := text.dropWhile (· ≠ '.')

theorem beforePoint_sign (text : List Char) :
    readSign ((beforePoint text).dropWhile isSpace) =
      ((readSign (text.dropWhile isSpace)).1,
        beforePoint (readSign (text.dropWhile isSpace)).2) := by
  have hspace : ∀ c, isSpace c = true → decide (c ≠ '.') = true := by
    intro c hc
    rw [decide_eq_true_iff]
    rintro rfl
    exact absurd hc (by decide)
  unfold beforePoint
  rw [dropWhile_takeWhile hspace, readSign_takeWhile (by decide) (by decide)]

theorem fromPoint_sign (text : List Char) :
    fromPoint (readSign (text.dropWhile isSpace)).2 = fromPoint text := by
  have hspace : ∀ c, isSpace c = true → decide (c ≠ '.') = true := by
    intro c hc
    rw [decide_eq_true_iff]
    rintro rfl
    exact absurd hc (by decide)
  unfold fromPoint
  rw [dropWhile_readSign (by decide) (by decide), dropWhile_dropWhile hspace]

theorem cut_at_point {front behind : List Char} (h : '.' ∉ front) :
    beforePoint (front ++ '.' :: behind) = front ∧
      fromPoint (front ++ '.' :: behind) = '.' :: behind := by
  have hfront : ∀ c ∈ front, decide (c ≠ '.') = true := by
    intro c hc
    rw [decide_eq_true_iff]
    rintro rfl
    exact h hc
  unfold beforePoint fromPoint
  rw [List.takeWhile_append_of_pos hfront, List.dropWhile_append_of_pos hfront]
  simp

theorem cut_without_point {text : List Char} (h : '.' ∉ text) :
    beforePoint text = text ∧ fromPoint text = [] := by
  have htext : ∀ c ∈ text, decide (c ≠ '.') = true := by
    intro c hc
    rw [decide_eq_true_iff]
    rintro rfl
    exact h hc
  exact ⟨List.takeWhile_eq_self_iff.mpr htext, List.dropWhile_eq_nil_iff.mpr htext⟩

namespace Numeral

variable {n : Numeral}

theorem Legal.whole_noPoint (h : n.Legal) : '.' ∉ n.whole :=
  fun hmem ↦ ne_point_of_isDigitOf (h.whole _ hmem) rfl

theorem Legal.cut_text (h : n.Legal) (front : List Char) (hfront : '.' ∉ front) :
    beforePoint (front ++ n.text) = front ++ (n.whole ++ if n.point then [] else n.exponent) ∧
      fromPoint (front ++ n.text) =
        if n.point then '.' :: (n.fraction ++ n.exponent) else [] := by
  unfold Numeral.text
  cases hpoint : n.point with
  | true =>
    have hnot : '.' ∉ front ++ n.whole := by
      rw [List.mem_append, not_or]
      exact ⟨hfront, h.whole_noPoint⟩
    have hcut : beforePoint (front ++ n.whole ++ '.' :: (n.fraction ++ n.exponent)) =
          front ++ n.whole ∧
        fromPoint (front ++ n.whole ++ '.' :: (n.fraction ++ n.exponent)) =
          '.' :: (n.fraction ++ n.exponent) := cut_at_point hnot
    rw [List.append_assoc] at hcut
    simpa using hcut
  | false =>
    have hnot : '.' ∉ front ++ (n.whole ++ n.exponent) := by
      rw [List.mem_append, List.mem_append, not_or, not_or]
      exact ⟨hfront, h.whole_noPoint, h.exponent_noPoint⟩
    rw [h.point hpoint]
    exact cut_without_point hnot

/-- The digits before the point, as a conversion to an integer reads them. -/
theorem Legal.takeWhile_whole (h : n.Legal) (hdecimal : n.hex = false) :
    (n.whole ++ if n.point then [] else n.exponent).takeWhile Char.isDigit = n.whole := by
  have hwhole : ∀ c ∈ n.whole, c.isDigit = true := by
    have hlegal := h.whole
    rw [hdecimal] at hlegal
    exact hlegal
  rw [List.takeWhile_append_of_pos hwhole]
  cases n.point with
  | true => simp
  | false =>
    rcases h.exponent with hnil | ⟨c, rest, hexp, hletter, -⟩
    · simp [hnil]
    · simp [hexp, not_isDigit_of_isExponent hletter]

end Numeral

end Strtod
