import Mathlib.Data.List.Basic
import Mathlib.Data.List.Induction
import Mathlib.Order.Lattice

/-!
# Loops that keep the best candidate so far

`result = f (x)` followed by a loop that replaces the result by each better `f (y)`.
-/

namespace Select

/-- The loop keeps the result with the lowest key; `OrderDual` keys make it the highest. -/
theorem foldl_lowest {α β γ : Type*} [LinearOrder γ] (f : α → β) (κ : β → γ) (x : α)
    (xs : List α) :
    ∃ k ∈ x :: xs, xs.foldl (fun r y ↦ if κ (f y) < κ r then f y else r) (f x) = f k ∧
      ∀ y ∈ x :: xs, κ (f k) ≤ κ (f y) := by
  induction xs generalizing x with
  | nil => exact ⟨x, by simp, rfl, by simp⟩
  | cons y ys ih =>
    rw [List.foldl_cons]
    split
    · rename_i hlt
      obtain ⟨k, hk, heq, hmin⟩ := ih y
      refine ⟨k, List.mem_cons_of_mem x hk, heq, ?_⟩
      intro z hz
      rcases List.mem_cons.mp hz with rfl | hz
      · exact (hmin y List.mem_cons_self).trans hlt.le
      · exact hmin z hz
    · rename_i hge
      obtain ⟨k, hk, heq, hmin⟩ := ih x
      refine ⟨k, ?_, heq, ?_⟩
      · rcases List.mem_cons.mp hk with rfl | hk
        · exact List.mem_cons_self
        · exact List.mem_cons_of_mem x (List.mem_cons_of_mem y hk)
      · intro z hz
        rcases List.mem_cons.mp hz with rfl | hz
        · exact hmin z List.mem_cons_self
        · rcases List.mem_cons.mp hz with rfl | hz
          · exact (hmin x List.mem_cons_self).trans (not_lt.mp hge)
          · exact hmin z (List.mem_cons_of_mem x hz)

/-- A loop that skips what it does not search for, takes the first of the others and then each that
is better: it finds the one with the lowest key, if there is any. -/
theorem foldl_search {α β γ : Type*} [LinearOrder γ] (p : α → Prop) (f : α → β) (κ : α → γ)
    (step : β → α → β) (start : β) (xs : List α)
    (hskip : ∀ r, ∀ x ∈ xs, ¬ p x → step r x = r) (hfirst : ∀ x ∈ xs, p x → step start x = f x)
    (hbetter : ∀ x ∈ xs, p x → ∀ y ∈ xs, p y →
      step (f y) x = if κ x < κ y then f x else f y) :
    (xs.foldl step start = start ∧ ∀ x ∈ xs, ¬ p x) ∨
      ∃ x ∈ xs, xs.foldl step start = f x ∧ p x ∧ ∀ y ∈ xs, p y → κ x ≤ κ y := by
  -- from the right, as the last step compares with the best of all before
  induction xs using List.reverseRecOn with
  | nil => exact Or.inl ⟨rfl, fun _ hx ↦ absurd hx List.not_mem_nil⟩
  | append_singleton xs x ih =>
    have hx : x ∈ xs ++ [x] := List.mem_append_right _ (List.mem_singleton_self x)
    have hold {y : α} (hy : y ∈ xs) : y ∈ xs ++ [x] := List.mem_append_left _ hy
    have hih := ih (fun r y hy ↦ hskip r y (hold hy)) (fun y hy ↦ hfirst y (hold hy))
      (fun y hy hpy z hz ↦ hbetter y (hold hy) hpy z (hold hz))
    simp only [List.foldl_append, List.foldl_cons, List.foldl_nil, List.forall_mem_append,
      List.forall_mem_singleton]
    by_cases hp : p x
    · right
      rcases hih with ⟨heq, hnone⟩ | ⟨y, hy, heq, hpy, hmin⟩
      · refine ⟨x, hx, by rw [heq, hfirst x hx hp], hp, ?_, fun _ ↦ le_rfl⟩
        exact fun z hz hpz ↦ absurd hpz (hnone z hz)
      · rw [heq, hbetter x hx hp y (hold hy) hpy]
        by_cases hlt : κ x < κ y
        · rw [if_pos hlt]
          exact ⟨x, hx, rfl, hp, fun z hz hpz ↦ hlt.le.trans (hmin z hz hpz), fun _ ↦ le_rfl⟩
        · rw [if_neg hlt]
          exact ⟨y, hold hy, rfl, hpy, hmin, fun _ ↦ not_lt.mp hlt⟩
    · rw [hskip _ x hx hp]
      rcases hih with ⟨heq, hnone⟩ | ⟨y, hy, heq, hpy, hmin⟩
      · exact Or.inl ⟨heq, hnone, hp⟩
      · exact Or.inr ⟨y, hold hy, heq, hpy, hmin, fun hpx ↦ absurd hpx hp⟩

end Select
