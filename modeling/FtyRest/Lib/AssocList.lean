import Mathlib.Data.Finset.Card
import Mathlib.Data.List.Nodup
import Mathlib.Data.List.Sort

/-!
# Association lists

What a lookup gives after the values were changed, or an entry was put in its place.
-/

namespace AssocList

variable {κ α β : Type} [BEq κ] [LawfulBEq κ]

theorem lookup_of_mem {l : List (κ × α)} (hnd : (l.map Prod.fst).Nodup) {k : κ} {x : α}
    (h : (k, x) ∈ l) : l.lookup k = some x := by
  induction l with
  | nil => exact absurd h List.not_mem_nil
  | cons p l ih =>
    rw [List.map_cons, List.nodup_cons] at hnd
    rw [List.lookup_cons]
    rcases List.mem_cons.mp h with rfl | h
    · simp
    · have hne : (k == p.1) = false := by
        rw [beq_eq_false_iff_ne]
        rintro rfl
        exact hnd.1 (List.mem_map.mpr ⟨_, h, rfl⟩)
      rw [hne]
      exact ih hnd.2 h

theorem mem_of_lookup {l : List (κ × α)} {k : κ} {x : α} (h : l.lookup k = some x) :
    (k, x) ∈ l := by
  have ⟨l₁, l₂, heq, _⟩ := List.lookup_eq_some_iff.mp h
  rw [heq]
  exact List.mem_append_right _ List.mem_cons_self

theorem lookup_map_value {l : List (κ × α)} {f : κ → α → β}
    {k : κ} : (l.map fun p ↦ (p.1, f p.1 p.2)).lookup k = (l.lookup k).map (f k) := by
  induction l with
  | nil => rfl
  | cons p l ih =>
    rw [List.map_cons, List.lookup_cons, List.lookup_cons]
    by_cases h : (k == p.1) = true
    · obtain rfl := eq_of_beq h
      simp
    · simp [h, ih]

theorem lookup_put {κ : Type} [DecidableEq κ] (l : List (κ × α)) (k : κ) (x : α) (k' : κ) :
    (l.filter (fun p ↦ p.1 ≠ k) ++ [(k, x)]).lookup k' =
      if k' = k then some x else l.lookup k' := by
  induction l with
  | nil =>
    rw [List.filter_nil, List.nil_append, List.lookup_cons]
    by_cases h : k' = k
    · simp [h]
    · rw [beq_eq_false_iff_ne.mpr h, if_neg h]
  | cons p l ih =>
    rw [List.lookup_cons]
    by_cases hp : p.1 = k
    · rw [List.filter_cons_of_neg (by simpa using hp), ih, hp]
      by_cases h : k' = k
      · simp [h]
      · rw [beq_eq_false_iff_ne.mpr h, if_neg h]
    · rw [List.filter_cons_of_pos (by simpa using hp), List.cons_append, List.lookup_cons, ih]
      by_cases h : k' = p.1
      · rw [if_neg (h ▸ hp), if_neg (h ▸ hp)]
      · rw [beq_eq_false_iff_ne.mpr h]

theorem nodup_put {κ : Type} [DecidableEq κ] {l : List (κ × α)} (h : (l.map Prod.fst).Nodup) (k : κ)
    (x : α) : ((l.filter (fun p ↦ p.1 ≠ k) ++ [(k, x)]).map Prod.fst).Nodup := by
  rw [List.map_append, List.nodup_append]
  refine ⟨h.sublist (List.filter_sublist.map _), List.nodup_singleton k, ?_⟩
  intro k' hk' other hother
  obtain ⟨p, hp, rfl⟩ := List.mem_map.mp hk'
  rw [List.mem_singleton.mp hother]
  simpa using (List.mem_filter.mp hp).2

/-- How many entries have a value. -/
theorem countP_value {κ : Type} [DecidableEq κ] [DecidableEq α] {l : List (κ × α)}
    (h : (l.map Prod.fst).Nodup) {x : α} {keys : Finset κ}
    (hkeys : ∀ k, k ∈ keys ↔ l.lookup k = some x) : l.countP (·.2 = x) = keys.card := by
  have hmem : ((l.filter (·.2 = x)).map Prod.fst).toFinset = keys := by
    apply Finset.ext
    intro k
    rw [List.mem_toFinset, hkeys, List.mem_map]
    constructor
    · rintro ⟨p, hp, rfl⟩
      obtain ⟨hp, hx⟩ := List.mem_filter.mp hp
      rw [← of_decide_eq_true hx]
      exact lookup_of_mem h hp
    · intro hk
      exact ⟨(k, x), List.mem_filter.mpr ⟨mem_of_lookup hk, decide_eq_true rfl⟩, rfl⟩
  rw [List.countP_eq_length_filter, ← hmem, List.toFinset_card_of_nodup, List.length_map]
  exact h.sublist (List.filter_sublist.map _)

theorem lookup_orderedInsert {r : κ × α → κ × α → Prop}
    [DecidableRel r] {l : List (κ × α)} {k : κ} {x : α} (h : l.lookup k = none) (k' : κ) :
    (l.orderedInsert r (k, x)).lookup k' = if k' == k then some x else l.lookup k' := by
  induction l with
  | nil =>
    rw [List.orderedInsert_nil, List.lookup_cons]
    split <;> simp_all
  | cons p l ih =>
    rw [List.lookup_cons] at h
    by_cases hk : (k == p.1) = true
    · rw [hk] at h
      cases h
    · rw [Bool.not_eq_true] at hk
      rw [hk] at h
      rw [List.orderedInsert_cons]
      split
      · rw [List.lookup_cons]
        split <;> simp_all
      · rw [List.lookup_cons, ih h, List.lookup_cons]
        by_cases hk' : (k' == p.1) = true
        · obtain rfl := eq_of_beq hk'
          have hne : (p.1 == k) = false := by
            rw [beq_eq_false_iff_ne] at hk ⊢
            exact hk.symm
          simp [hne]
        · rw [Bool.not_eq_true] at hk'
          simp [hk']

end AssocList
