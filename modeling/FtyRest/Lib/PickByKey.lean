import Mathlib.Data.List.Nodup
import Mathlib.Data.List.Perm.Lattice

/-!
# Values in the order of their keys

The values of a list are looked up one after the other, by keys that come from somewhere else.
-/

namespace PickByKey

variable {α κ : Type*} [DecidableEq κ] (key : α → κ)

def pick (xs : List α) (keys : List κ) : List α :=
  keys.filterMap fun k ↦ xs.find? fun x ↦ key x = k

variable {key} {xs : List α} {keys : List κ} {x : α}

theorem mem_pick : x ∈ pick key xs keys ↔
    ∃ k ∈ keys, xs.find? (fun x ↦ key x = k) = some x := by
  rw [pick, List.mem_filterMap]

theorem mem_of_mem_pick (h : x ∈ pick key xs keys) : x ∈ xs ∧ key x ∈ keys := by
  obtain ⟨k, hk, hfind⟩ := mem_pick.mp h
  have hkey : key x = k := of_decide_eq_true (List.find?_some (p := fun x ↦ key x = k) hfind)
  rw [hkey]
  exact ⟨List.mem_of_find?_eq_some hfind, hk⟩

/-- The picked keys stand in the order in which they were asked for. -/
theorem map_pick_sublist : ((pick key xs keys).map key).Sublist keys := by
  induction keys with
  | nil => exact List.Sublist.refl _
  | cons k keys ih =>
    unfold pick at ih ⊢
    cases hfind : xs.find? (fun x ↦ key x = k) with
    | none =>
      simp only [List.filterMap_cons, hfind]
      exact ih.cons k
    | some x =>
      have hkey : key x = k := of_decide_eq_true (List.find?_some (p := fun x ↦ key x = k) hfind)
      simp only [List.filterMap_cons, hfind, List.map_cons, hkey]
      exact ih.cons_cons k

theorem find_of_nodup (hxs : (xs.map key).Nodup) (hx : x ∈ xs) :
    xs.find? (fun y ↦ key y = key x) = some x := by
  cases hfind : xs.find? (fun y ↦ key y = key x) with
  | none => exact absurd (decide_eq_true rfl) (List.find?_eq_none.mp hfind x hx)
  | some y =>
    have hkey : key y = key x :=
      of_decide_eq_true (List.find?_some (p := fun y ↦ key y = key x) hfind)
    rw [List.inj_on_of_nodup_map hxs (List.mem_of_find?_eq_some hfind) hx hkey]

/-- Distinct keys that miss none pick every value once. -/
theorem pick_perm (hxs : (xs.map key).Nodup) (hkeys : keys.Nodup)
    (hall : ∀ x ∈ xs, key x ∈ keys) : (pick key xs keys).Perm xs := by
  have hpicked : (pick key xs keys).Nodup := (map_pick_sublist.nodup hkeys).of_map key
  rw [List.perm_ext_iff_of_nodup hpicked (hxs.of_map key)]
  intro x
  constructor
  · intro hx
    exact (mem_of_mem_pick hx).1
  · intro hx
    exact mem_pick.mpr ⟨key x, hall x hx, find_of_nodup hxs hx⟩

/-- Values whose keys are all picked, each once, have distinct keys, and these were asked for. -/
theorem all_of_pick_perm (hkeys : keys.Nodup)
    (h : (xs.map key).Perm ((pick key xs keys).map key)) :
    (xs.map key).Nodup ∧ ∀ x ∈ xs, key x ∈ keys := by
  constructor
  · exact h.nodup_iff.mpr (map_pick_sublist.nodup hkeys)
  · intro x hx
    exact map_pick_sublist.subset (h.subset (List.mem_map_of_mem hx))

/-- The values of each of some distinct keys, one key after the other. -/
theorem flatMap_filter_perm (hkeys : keys.Nodup) :
    (keys.flatMap fun k ↦ xs.filter fun x ↦ key x = k).Perm (xs.filter fun x ↦ key x ∈ keys) := by
  induction keys with
  | nil => simp
  | cons k keys ih =>
    obtain ⟨hk, hrest⟩ := List.nodup_cons.mp hkeys
    have hfirst : (xs.filter fun x ↦ key x ∈ k :: keys).filter (fun x ↦ key x = k) =
        xs.filter fun x ↦ key x = k := by
      rw [List.filter_filter]
      apply List.filter_congr
      intro x _
      by_cases h : key x = k <;> simp [h]
    have hothers : (xs.filter fun x ↦ key x ∈ k :: keys).filter (fun x ↦ !decide (key x = k)) =
        xs.filter fun x ↦ key x ∈ keys := by
      rw [List.filter_filter]
      apply List.filter_congr
      intro x _
      by_cases h : key x = k <;> simp [h, hk]
    rw [List.flatMap_cons]
    refine ((ih hrest).append_left _).trans ?_
    rw [← hfirst, ← hothers]
    exact List.filter_append_perm _ _

end PickByKey
