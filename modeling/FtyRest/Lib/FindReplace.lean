import Mathlib.Data.List.Basic
import Mathlib.Data.List.Infix

/-!
# Replacing all occurrences

A loop that looks for a pattern from an index on, replaces it, and goes on behind what it has put
in, against the parts of the text between the occurrences.
-/

namespace FindReplace

theorem intercalate_cons {α : Type*} {sep part : List α} {parts : List (List α)} (h : parts ≠ []) :
    sep.intercalate (part :: parts) = part ++ sep ++ sep.intercalate parts := by
  cases parts with
  | nil => exact absurd rfl h
  | cons next parts => rw [List.intercalate_cons_cons, List.append_assoc]

variable {α : Type*} [DecidableEq α]

/-- Where the pattern first stands in the text. -/
def find (pattern : List α) : List α → Option Nat
  | [] => if pattern = [] then some 0 else none
  | a :: text =>
      if pattern.isPrefixOf (a :: text) then some 0 else (find pattern text).map (· + 1)

/-- The same, from an index on. -/
def findFrom (pattern text : List α) (index : Nat) : Option Nat :=
  if index ≤ text.length then (find pattern (text.drop index)).map (index + ·) else none

section

variable {pattern text : List α} {n index : Nat}

theorem prefix_of_find (h : find pattern text = some n) : pattern <+: text.drop n := by
  induction text generalizing n with
  | nil =>
    rw [find] at h
    split at h
    · rename_i hpattern
      rw [hpattern]
      exact List.nil_prefix
    · cases h
  | cons a text ih =>
    rw [find] at h
    split at h
    · rename_i hprefix
      rw [← Option.some.inj h]
      exact List.isPrefixOf_iff_prefix.mp hprefix
    · obtain ⟨m, hm, rfl⟩ := Option.map_eq_some_iff.mp h
      exact ih hm

theorem find_first (h : find pattern text = some n) {m : Nat} (hm : m < n) :
    ¬ pattern <+: text.drop m := by
  induction text generalizing n m with
  | nil =>
    rw [find] at h
    split at h
    · rw [← Option.some.inj h] at hm
      exact absurd hm (Nat.not_lt_zero m)
    · cases h
  | cons a text ih =>
    rw [find] at h
    split at h
    · rw [← Option.some.inj h] at hm
      exact absurd hm (Nat.not_lt_zero m)
    · rename_i hprefix
      obtain ⟨k, hk, rfl⟩ := Option.map_eq_some_iff.mp h
      cases m with
      | zero => exact fun hp ↦ hprefix (List.isPrefixOf_iff_prefix.mpr hp)
      | succ m => exact ih hk (Nat.lt_of_succ_lt_succ hm)

theorem find_eq_none (h : find pattern text = none) : ¬ pattern <:+: text := by
  induction text with
  | nil =>
    rw [find] at h
    split at h
    · cases h
    · rename_i hpattern
      exact fun hinfix ↦ hpattern (List.infix_nil.mp hinfix)
  | cons a text ih =>
    rw [find] at h
    split at h
    · cases h
    · rename_i hprefix
      rw [List.infix_cons_iff]
      rintro (hp | hinfix)
      · exact hprefix (List.isPrefixOf_iff_prefix.mpr hp)
      · exact ih (Option.map_eq_none_iff.mp h) hinfix

/-- The occurrence that is found lies in the text. -/
theorem find_le (hne : pattern ≠ []) (h : find pattern text = some n) :
    n + pattern.length ≤ text.length := by
  have hlength := (prefix_of_find h).length_le
  have hpos := List.length_pos_iff.mpr hne
  rw [List.length_drop] at hlength
  omega

theorem findFrom_eq_some (h : findFrom pattern text index = some n) :
    index ≤ text.length ∧ ∃ m, find pattern (text.drop index) = some m ∧ n = index + m := by
  unfold findFrom at h
  split at h
  · rename_i hindex
    obtain ⟨m, hm, rfl⟩ := Option.map_eq_some_iff.mp h
    exact ⟨hindex, m, hm, rfl⟩
  · cases h

theorem findFrom_eq_none (hindex : index ≤ text.length) (h : findFrom pattern text index = none) :
    find pattern (text.drop index) = none := by
  unfold findFrom at h
  rw [if_pos hindex] at h
  exact Option.map_eq_none_iff.mp h

end

/-- The parts of a text between the occurrences of a word, which is not empty. -/
def splits (word text : List α) : List (List α) :=
  match _hfound : find word text with
  | none => [text]
  | some n =>
      if _hne : word = [] then [text]
      else text.take n :: splits word (text.drop (n + word.length))
termination_by text.length
decreasing_by
  have hle := find_le _hne _hfound
  have hpos := List.length_pos_iff.mpr _hne
  rw [List.length_drop]
  omega

def replaceAll (word new text : List α) : List α := new.intercalate (splits word text)

/-- The loop, which is for words that are not empty. -/
def replaceLoop (word new text : List α) (index : Nat) : List α :=
  match _hfound : findFrom word text index with
  | none => text
  | some pos =>
      if _hne : word = [] then text
      else
        replaceLoop word new (text.take pos ++ new ++ text.drop (pos + word.length))
          (pos + new.length)
termination_by text.length - index
decreasing_by
  obtain ⟨hindex, m, hm, rfl⟩ := findFrom_eq_some _hfound
  have hle := find_le _hne hm
  have hpos := List.length_pos_iff.mpr _hne
  rw [List.length_drop] at hle
  rw [List.length_append, List.length_append, List.length_take, List.length_drop]
  omega

section

variable {word new text : List α} {index : Nat}

theorem splits_of_none (h : find word text = none) : splits word text = [text] := by
  rw [splits]
  split
  · rfl
  · rename_i hsome
    rw [h] at hsome
    cases hsome

theorem splits_of_some (hne : word ≠ []) {n : Nat} (h : find word text = some n) :
    splits word text = text.take n :: splits word (text.drop (n + word.length)) := by
  rw [splits]
  split
  · rename_i hnone
    rw [h] at hnone
    cases hnone
  · rename_i k hsome
    obtain rfl : n = k := Option.some.inj (h.symm.trans hsome)
    rw [dif_neg hne]

theorem splits_ne_nil : splits word text ≠ [] := by
  rw [splits]
  split
  · exact List.cons_ne_nil _ _
  · split
    · exact List.cons_ne_nil _ _
    · exact List.cons_ne_nil _ _

/-- With the word between them the parts are the text. -/
theorem intercalate_splits (hne : word ≠ []) (text : List α) :
    word.intercalate (splits word text) = text := by
  induction text using splits.induct word with
  | case1 text h => rw [splits_of_none h, List.intercalate_singleton]
  | case2 text n h hempty => exact absurd hempty hne
  | case3 text n h _ ih =>
    have hword : (text.drop n).take word.length = word :=
      (List.prefix_iff_eq_take.mp (prefix_of_find h)).symm
    rw [splits_of_some hne h, intercalate_cons splits_ne_nil, ih, ← List.drop_drop]
    conv_lhs => rw [List.append_assoc, ← hword]
    rw [List.length_take_of_le (prefix_of_find h).length_le, List.take_append_drop,
      List.take_append_drop]

/-- No part has the word in it. -/
theorem not_infix_of_mem_splits (hne : word ≠ []) {part : List α} (h : part ∈ splits word text) :
    ¬ word <:+: part := by
  induction text using splits.induct word with
  | case1 text hnone =>
    rw [splits_of_none hnone, List.mem_singleton] at h
    rw [h]
    exact find_eq_none hnone
  | case2 text n hsome hempty => exact absurd hempty hne
  | case3 text n hsome _ ih =>
    rw [splits_of_some hne hsome] at h
    rcases List.mem_cons.mp h with rfl | h
    · rintro ⟨before, after, htake⟩
      -- an occurrence before the first one
      have hlength := congrArg List.length htake
      rw [List.length_append, List.length_append, List.length_take] at hlength
      have hpos := List.length_pos_iff.mpr hne
      have hlt : before.length < n := by omega
      apply find_first hsome hlt
      refine ⟨after ++ text.drop n, ?_⟩
      have htext : text = before ++ (word ++ (after ++ text.drop n)) := by
        conv_lhs => rw [← List.take_append_drop n text, ← htake]
        simp only [List.append_assoc]
      conv_rhs => rw [htext, List.drop_left]
    · exact ih h

theorem replaceAll_of_none (h : find word text = none) : replaceAll word new text = text := by
  unfold replaceAll
  rw [splits_of_none h, List.intercalate_singleton]

theorem replaceAll_of_some (hne : word ≠ []) {n : Nat} (h : find word text = some n) :
    replaceAll word new text =
      text.take n ++ new ++ replaceAll word new (text.drop (n + word.length)) := by
  unfold replaceAll
  rw [splits_of_some hne h, intercalate_cons splits_ne_nil]

theorem replaceLoop_of_none (h : findFrom word text index = none) :
    replaceLoop word new text index = text := by
  rw [replaceLoop]
  split
  · rfl
  · rename_i hsome
    rw [h] at hsome
    cases hsome

theorem replaceLoop_of_some (hne : word ≠ []) {pos : Nat} (h : findFrom word text index = some pos) :
    replaceLoop word new text index =
      replaceLoop word new (text.take pos ++ new ++ text.drop (pos + word.length))
        (pos + new.length) := by
  rw [replaceLoop]
  split
  · rename_i hnone
    rw [h] at hnone
    cases hnone
  · rename_i k hsome
    obtain rfl : pos = k := Option.some.inj (h.symm.trans hsome)
    rw [dif_neg hne]

/-- The loop does what is asked of it, from its index on. -/
theorem replaceLoop_eq (hne : word ≠ []) (hindex : index ≤ text.length) :
    replaceLoop word new text index = text.take index ++ replaceAll word new (text.drop index) := by
  induction text, index using replaceLoop.induct word new with
  | case1 text index h =>
    rw [replaceLoop_of_none h, replaceAll_of_none (findFrom_eq_none hindex h),
      List.take_append_drop]
  | case2 text index pos h hempty => exact absurd hempty hne
  | case3 text index pos h _ ih =>
    obtain ⟨-, n, hfind, rfl⟩ := findFrom_eq_some h
    have hle := find_le hne hfind
    rw [List.length_drop] at hle
    have htake : (text.take (index + n) ++ new).length = index + n + new.length := by
      rw [List.length_append, List.length_take, Nat.min_eq_left (by omega)]
    have hlength : index + n + new.length ≤
        (text.take (index + n) ++ new ++ text.drop (index + n + word.length)).length := by
      rw [List.length_append, htake]
      exact Nat.le_add_right _ _
    rw [replaceLoop_of_some hne h, ih hlength, ← htake, List.take_left, List.drop_left,
      replaceAll_of_some hne hfind, List.drop_drop, List.take_add]
    simp only [List.append_assoc, Nat.add_assoc]

end

end FindReplace
