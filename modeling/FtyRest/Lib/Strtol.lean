import FtyRest.Lib.Stoi
import Mathlib.Data.List.Induction

/-!
# Reading integers

The conversions of the C library read an integer at the beginning of a text: blanks, a sign and
digits.  They differ in what they do with the integer; `scan` is what they share.
-/

namespace Strtol

open Stoi

/-- The value of digits behind a sign. -/
def signed (negative : Bool) (digits : List Char) : Int :=
  if negative then -(Nat.ofDigitChars 10 digits 0 : Int) else Nat.ofDigitChars 10 digits 0

/-- The integer at the beginning of a text, and what is left of the text behind it. -/
def scan (text : List Char) : Option (Int × List Char) :=
  let (negative, rest) := readSign (text.dropWhile isSpace)
  let digits := rest.takeWhile Char.isDigit
  if digits = [] then none
  else some (signed negative digits, rest.drop digits.length)

/-- A text that is an integer as a whole: a sign or none, and digits. -/
def decimal (text : List Char) : Option Int :=
  let (negative, digits) := readSign text
  if digits = [] ∨ ¬ digits.all Char.isDigit then none else some (signed negative digits)

/-! ## The whole of a text -/

theorem drop_takeWhile_length {α : Type} (p : α → Bool) (l : List α) :
    l.drop (l.takeWhile p).length = l.dropWhile p := by
  calc l.drop (l.takeWhile p).length
      = (l.takeWhile p ++ l.dropWhile p).drop (l.takeWhile p).length := by
        rw [List.takeWhile_append_dropWhile]
    _ = l.dropWhile p := List.drop_left

theorem scan_eq (text : List Char) : scan text =
    let (negative, rest) := readSign (text.dropWhile isSpace)
    if rest.takeWhile Char.isDigit = [] then none
    else some (signed negative (rest.takeWhile Char.isDigit), rest.dropWhile Char.isDigit) := by
  unfold scan
  dsimp only
  rw [drop_takeWhile_length]

/-- The reading gets to the end of a text that is an integer behind blanks. -/
theorem scan_eq_some_nil {text : List Char} {n : Int} :
    scan text = some (n, []) ↔ decimal (text.dropWhile isSpace) = some n := by
  rw [scan_eq, decimal]
  generalize readSign (text.dropWhile isSpace) = sign
  obtain ⟨negative, rest⟩ := sign
  dsimp only
  by_cases hdigits : rest.all Char.isDigit
  · have hall : ∀ c ∈ rest, c.isDigit = true := List.all_eq_true.mp hdigits
    have htake : rest.takeWhile Char.isDigit = rest := List.takeWhile_eq_self_iff.mpr hall
    have hdrop : rest.dropWhile Char.isDigit = [] := List.dropWhile_eq_nil_iff.mpr hall
    rw [htake, hdrop]
    by_cases hnil : rest = []
    · simp [hnil]
    · simp [hnil, hdigits]
  · have hdrop : rest.dropWhile Char.isDigit ≠ [] := by
      intro hnil
      exact hdigits (List.all_eq_true.mpr (List.dropWhile_eq_nil_iff.mp hnil))
    rw [if_pos (Or.inr hdigits)]
    split
    · simp
    · simp [hdrop]

/-- An integer begins with its sign or with a digit. -/
theorem decimal_head {text : List Char} {n : Int} (h : decimal text = some n) :
    ∃ c rest, text = c :: rest ∧ isSpace c = false := by
  cases text with
  | nil => simp [decimal, readSign] at h
  | cons c rest =>
    refine ⟨c, rest, rfl, ?_⟩
    unfold decimal readSign at h
    split at h
    rename_i negative digits heq
    split at heq
    · rename_i hc
      rw [(List.cons.inj hc).1]
      decide
    · rename_i hc
      rw [(List.cons.inj hc).1]
      decide
    · obtain ⟨-, rfl⟩ := Prod.mk.inj heq
      split at h
      · exact absurd h (by simp)
      · rename_i hall
        apply not_isSpace_of_isDigit
        have hall : (c :: rest).all Char.isDigit := not_not.mp (not_or.mp hall).2
        exact List.all_eq_true.mp hall c List.mem_cons_self

/-- There are no blanks before an integer. -/
theorem dropWhile_of_decimal {text : List Char} {n : Int} (h : decimal text = some n) :
    text.dropWhile isSpace = text := by
  obtain ⟨c, rest, rfl, hc⟩ := decimal_head h
  exact dropWhile_isSpace hc

theorem scan_of_decimal {text : List Char} {n : Int} (h : decimal text = some n) :
    scan text = some (n, []) := by
  rw [scan_eq_some_nil, dropWhile_of_decimal h]
  exact h

theorem readSign_of_isDigit {c : Char} (h : c.isDigit = true) (rest : List Char) :
    readSign (c :: rest) = (false, c :: rest) := by
  unfold readSign
  split
  · exact absurd h (by simp_all)
  · exact absurd h (by simp_all)
  · rfl

/-- Digits are read up to their end. -/
theorem scan_digits {digits rest : List Char} (hne : digits ≠ [])
    (hdigits : ∀ c ∈ digits, c.isDigit = true) (hrest : rest.takeWhile Char.isDigit = []) :
    scan (digits ++ rest) = some (signed false digits, rest) := by
  have htake : (digits ++ rest).takeWhile Char.isDigit = digits := by
    rw [List.takeWhile_append_of_pos hdigits, hrest, List.append_nil]
  cases digits with
  | nil => exact absurd rfl hne
  | cons c tail =>
    have hc : c.isDigit = true := hdigits c List.mem_cons_self
    unfold scan
    rw [List.cons_append, dropWhile_isSpace (not_isSpace_of_isDigit hc), readSign_of_isDigit hc,
      ← List.cons_append]
    dsimp only
    rw [htake, if_neg hne, List.drop_left]

/-! ## How large an integer is -/

theorem ofDigitChars_lt {digits : List Char} (h : ∀ c ∈ digits, c.isDigit = true) :
    Nat.ofDigitChars 10 digits 0 < 10 ^ digits.length := by
  induction digits using List.reverseRecOn with
  | nil => decide
  | append_singleton digits c ih =>
    have hprefix : Nat.ofDigitChars 10 digits 0 < 10 ^ digits.length := by
      apply ih
      intro d hd
      exact h d (List.mem_append_left _ hd)
    have hc : c.isDigit = true := h c (by simp)
    have hdigit : c.toNat - '0'.toNat < 10 := by
      simp only [Char.isDigit, Bool.and_eq_true, decide_eq_true_eq, UInt32.le_iff_toNat_le] at hc
      change c.val.toNat - 48 < 10
      change 48 ≤ c.val.toNat ∧ c.val.toNat ≤ 57 at hc
      omega
    rw [Nat.ofDigitChars_append, Nat.ofDigitChars_cons, Nat.ofDigitChars_nil, List.length_append,
      List.length_singleton, Nat.pow_succ]
    omega

theorem readSign_length (text : List Char) : (readSign text).2.length ≤ text.length := by
  unfold readSign
  split
  · exact Nat.le_succ _
  · exact Nat.le_succ _
  · exact Nat.le_refl _

theorem natAbs_of_decimal {text : List Char} {n : Int} (h : decimal text = some n) :
    n.natAbs < 10 ^ text.length := by
  have hlength := readSign_length text
  unfold decimal at h
  revert h hlength
  generalize readSign text = sign
  obtain ⟨negative, digits⟩ := sign
  intro h hlength
  dsimp only at h hlength
  by_cases hdigits : digits = [] ∨ ¬ digits.all Char.isDigit
  · rw [if_pos hdigits] at h
    cases h
  · rw [if_neg hdigits] at h
    have hall := List.all_eq_true.mp (not_not.mp (not_or.mp hdigits).2)
    have hvalue : n.natAbs = Nat.ofDigitChars 10 digits 0 := by
      rw [← Option.some.inj h, signed]
      split
      · rw [Int.natAbs_neg, Int.natAbs_natCast]
      · rw [Int.natAbs_natCast]
    calc n.natAbs
        = Nat.ofDigitChars 10 digits 0 := hvalue
      _ < 10 ^ digits.length := ofDigitChars_lt hall
      _ ≤ 10 ^ text.length := Nat.pow_le_pow_right (by decide) hlength

/-! ## `std::stoi` -/

theorem stoi_eq_scan (text : String) : stoi text =
    match scan text.toList with
    | none => .invalidArgument
    | some (n, rest) =>
        if minInt ≤ n ∧ n ≤ maxInt then .ok n (text.length - rest.length) else .outOfRange := by
  unfold stoi scan
  generalize readSign (text.toList.dropWhile isSpace) = sign
  obtain ⟨negative, rest⟩ := sign
  dsimp only
  split
  · rfl
  · dsimp only
    rw [List.length_drop]
    rfl

theorem scan_of_stoi {text : List Char} {n : Int} {pos : Nat}
    (h : stoi (.ofList text) = .ok n pos) :
    ∃ rest, scan text = some (n, rest) ∧ minInt ≤ n ∧ n ≤ maxInt := by
  rw [stoi_eq_scan, String.toList_ofList] at h
  cases hscan : scan text with
  | none =>
    rw [hscan] at h
    exact absurd h (by simp)
  | some found =>
    obtain ⟨m, rest⟩ := found
    rw [hscan] at h
    dsimp only at h
    split at h
    · cases h
      exact ⟨rest, rfl, ‹_›⟩
    · exact absurd h (by simp)

end Strtol
