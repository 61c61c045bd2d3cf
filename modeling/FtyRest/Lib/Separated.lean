import Mathlib.Data.List.Basic

/-!
# Joining with a separator that waits for a first text

`ret += (ret.empty() ? "" : sep) + value`: the separator depends on what has been joined so far,
not on how many values that were.
-/

namespace Separated

def joinStep (sep ret value : String) : String := ret ++ (if ret = "" then "" else sep) ++ value

variable {sep : String} {values : List String}

theorem joinStep_empty {value : String} : joinStep sep "" value = value := by
  rw [joinStep, if_pos rfl, String.append_empty, String.empty_append]

theorem joinStep_of_ne {ret value : String} (h : ret ≠ "") :
    joinStep sep ret value = ret ++ sep ++ value := by
  rw [joinStep, if_neg h]

/-- Behind a first text the separators are those of `intercalate`. -/
theorem foldl_joinStep_of_ne {ret : String} (h : ret ≠ "") :
    values.foldl (joinStep sep) ret = sep.intercalate (ret :: values) := by
  induction values generalizing ret with
  | nil => rw [List.foldl_nil, String.intercalate_singleton]
  | cons value values ih =>
    have hne : ret ++ sep ++ value ≠ "" := by
      intro heq
      rw [String.append_assoc, String.append_eq_empty_iff] at heq
      exact h heq.1
    rw [List.foldl_cons, joinStep_of_ne h, ih hne, String.intercalate_cons_append,
      String.intercalate_cons_cons]

theorem dropWhile_empty_cons :
    ("" :: values).dropWhile (· = "") = values.dropWhile (· = "") :=
  List.dropWhile_cons_of_pos (decide_eq_true rfl)

/-- The empty values before the first text are lost. -/
theorem foldl_joinStep :
    values.foldl (joinStep sep) "" = sep.intercalate (values.dropWhile (· = "")) := by
  induction values with
  | nil => rw [List.foldl_nil, List.dropWhile_nil, String.intercalate_nil]
  | cons value values ih =>
    rw [List.foldl_cons, joinStep_empty]
    by_cases h : value = ""
    · rw [h, ih, dropWhile_empty_cons]
    · rw [foldl_joinStep_of_ne h, List.dropWhile_cons_of_neg (by rwa [decide_eq_true_eq])]

theorem length_intercalate_dropWhile_le :
    (sep.intercalate (values.dropWhile (· = ""))).length ≤ (sep.intercalate values).length := by
  induction values with
  | nil => exact Nat.le_refl _
  | cons value values ih =>
    by_cases h : value = ""
    · rw [h, dropWhile_empty_cons]
      apply Nat.le_trans ih
      cases values with
      | nil =>
        have hnil : sep.intercalate [""] = sep.intercalate [] := by
          rw [String.intercalate_singleton, String.intercalate_nil]
        exact Nat.le_of_eq (congrArg String.length hnil.symm)
      | cons second values =>
        rw [String.intercalate_cons_cons, String.length_append]
        omega
    · have hkeep : (value :: values).dropWhile (· = "") = value :: values :=
        List.dropWhile_cons_of_neg (by rwa [decide_eq_true_eq])
      exact Nat.le_of_eq (congrArg (fun kept ↦ (sep.intercalate kept).length) hkeep)

theorem intercalate_empty_dropWhile :
    "".intercalate (values.dropWhile (· = "")) = "".intercalate values := by
  induction values with
  | nil => rfl
  | cons value values ih =>
    by_cases h : value = ""
    · rw [h, dropWhile_empty_cons, ih]
      cases values with
      | nil => rw [String.intercalate_singleton, String.intercalate_nil]
      | cons second values =>
        rw [String.intercalate_cons_cons, String.empty_append, String.empty_append]
    · rw [List.dropWhile_cons_of_neg (by rwa [decide_eq_true_eq])]

/-- All separators are there when the first value is a text, or when there is nothing to lose. -/
theorem foldl_joinStep_eq_iff : values.foldl (joinStep sep) "" = sep.intercalate values ↔
    sep = "" ∨ values.length ≤ 1 ∨ values.head? ≠ some "" := by
  cases values with
  | nil => simp
  | cons value values =>
    by_cases hvalue : value = ""
    · cases values with
      | nil =>
        rw [List.foldl_cons, joinStep_empty, List.foldl_nil, String.intercalate_singleton]
        simp
      | cons second values =>
        have hlength : ¬ (value :: second :: values).length ≤ 1 := by
          simp only [List.length_cons]
          omega
        have hhead : ¬ (value :: second :: values).head? ≠ some "" := by
          rw [List.head?_cons, hvalue]
          exact fun h ↦ h rfl
        rw [or_iff_left (not_or.mpr ⟨hlength, hhead⟩), List.foldl_cons, joinStep_empty, hvalue,
          String.intercalate_cons_cons, String.empty_append]
        constructor
        · intro heq
          -- without its leading empty values the text is no longer, and lacks a separator
          have hle : (sep.intercalate ((second :: values).dropWhile (· = ""))).length ≤
              (sep.intercalate (second :: values)).length :=
            length_intercalate_dropWhile_le
          rw [← foldl_joinStep, heq, String.length_append] at hle
          exact String.length_eq_zero_iff.mp (by omega)
        · rintro rfl
          rw [foldl_joinStep, intercalate_empty_dropWhile, String.empty_append]
    · rw [List.foldl_cons, joinStep_empty, foldl_joinStep_of_ne hvalue, List.head?_cons]
      simp [hvalue]

end Separated
