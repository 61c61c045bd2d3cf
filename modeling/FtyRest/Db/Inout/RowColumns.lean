import FtyRest.Db.Inout.ExportCsv

/-!
# The columns of a row

Which columns of a table `process_row` goes through, and which of them it takes for attributes.
-/

namespace FtyRest.Db

open Shared Checks

/-! ## The columns with a number -/

/-- The loop stops at the first number that is no title. -/
theorem mem_takeWhile_range' {p : Nat → Bool} {m s n : Nat} :
    m ∈ (List.range' s n).takeWhile p ↔ s ≤ m ∧ m < s + n ∧ ∀ j, s ≤ j → j ≤ m → p j = true := by
  induction n generalizing s with
  | zero =>
    rw [List.range'_zero, List.takeWhile_nil]
    simp only [List.not_mem_nil, false_iff, not_and]
    omega
  | succ n ih =>
    rw [List.range'_succ, List.takeWhile_cons]
    split
    · rename_i hs
      rw [List.mem_cons, ih]
      constructor
      · rintro (rfl | ⟨hlow, hhigh, hall⟩)
        · refine ⟨Nat.le_refl _, by omega, fun j hsj hjs ↦ ?_⟩
          obtain rfl := Nat.le_antisymm hsj hjs
          exact hs
        · refine ⟨by omega, by omega, fun j hsj hjm ↦ ?_⟩
          rcases Nat.eq_or_lt_of_le hsj with rfl | hsj
          · exact hs
          · exact hall j hsj hjm
      · intro ⟨hlow, hhigh, hall⟩
        rcases Nat.eq_or_lt_of_le hlow with rfl | hlow
        · exact Or.inl rfl
        · exact Or.inr ⟨hlow, by omega, fun j hsj hjm ↦ hall j (by omega) hjm⟩
    · rename_i hs
      simp only [List.not_mem_nil, false_iff, not_and]
      intro hlow _ hall
      exact hs (hall s (Nat.le_refl _) hlow)

/-- A number is reached when there are titles with it and with the ones before. -/
theorem mem_indices {i : RowInput} {item : String} (hitem : item.toList.getLast? = some '.')
    {index : Nat} :
    index ∈ i.indices item ↔ ∃ k, index = k + 1 ∧ ∀ j ≤ k, numbered item j ∈ i.titles := by
  have hhas (j : Nat) : i.has (item ++ toString (j + 1)) = true ↔ numbered item j ∈ i.titles := by
    unfold RowInput.has numbered
    exact decide_eq_true_iff
  rw [RowInput.indices, mem_takeWhile_range']
  constructor
  · intro ⟨hlow, _, hall⟩
    obtain ⟨k, rfl⟩ : ∃ k, index = k + 1 := ⟨index - 1, by omega⟩
    exact ⟨k, rfl, fun j hj ↦ (hhas j).mp (hall (j + 1) (by omega) (by omega))⟩
  · intro ⟨k, hindex, hall⟩
    subst hindex
    refine ⟨by omega, ?_, fun j hlow hj ↦ ?_⟩
    · -- there are as many titles as numbers
      have hnd : ((List.range (k + 1)).map (numbered item)).Nodup :=
        List.nodup_range.map fun _ _ h ↦ ((numbered_inj hitem hitem).mp h).2
      have hsubset : (List.range (k + 1)).map (numbered item) ⊆ i.titles := by
        intro title htitle
        obtain ⟨j, hj, rfl⟩ := List.mem_map.mp htitle
        exact hall j (by rw [List.mem_range] at hj; omega)
      have hlength := (List.subperm_of_subset hnd hsubset).length_le
      rw [List.length_map, List.length_range] at hlength
      omega
    · obtain ⟨j, rfl⟩ : ∃ j', j = j' + 1 := ⟨j - 1, by omega⟩
      exact (hhas j).mpr (hall j (by omega))

theorem mem_map_indices {i : RowInput} {item : String} (hitem : item.toList.getLast? = some '.')
    {f : Nat → String} {title : String} : title ∈ (i.indices item).map f ↔
      ∃ k, (∀ j ≤ k, numbered item j ∈ i.titles) ∧ title = f (k + 1) := by
  simp only [List.mem_map, mem_indices hitem]
  constructor
  · rintro ⟨_, ⟨k, rfl, hall⟩, heq⟩
    exact ⟨k, hall, heq.symm⟩
  · intro ⟨k, hall, heq⟩
    exact ⟨k + 1, ⟨k, rfl, hall⟩, heq.symm⟩

/-! ## The columns that are not attributes -/

/-- The columns that the import reads as a field. -/
def fieldTitles : List String :=
  ["create_mode", "id", "name", "type", "status", "asset_tag", "priority", "location", "sub_type"]

/-- What the import reads as something else than an attribute. -/
inductive Used (titles : List String) : String → Prop where
  | field {title : String} : title ∈ fieldTitles → Used titles title
  | group {k : Nat} : (∀ j ≤ k, numbered "group." j ∈ titles) → Used titles (numbered "group." k)
  | power {title : String} {k : Nat} : (∀ j ≤ k, numbered "power_source." j ∈ titles) →
      title ∈ powerTitles k → Used titles title

theorem field_of_used {titles : List String} {title : String} (h : Used titles title)
    (hpoint : '.' ∉ title.toList) : title ∈ fieldTitles := by
  cases h with
  | field hfield => exact hfield
  | group _ => exact absurd (point_mem_numbered (by decide) _) hpoint
  | power _ hpower =>
    rcases mem_powerTitles.mp hpower with rfl | rfl | rfl <;>
      exact absurd (point_mem_numbered (by decide) _) hpoint

/-- What is gone through as an attribute, unless the columns of the hardware are left out. -/
theorem mem_unusedColumns_iff {i : RowInput} {idStr title : String}
    (hrow : ¬ (i.rc0 = i.row ∧ idStr ≠ "rackcontroller-0")) :
    title ∈ unusedColumns i idStr ↔ title ∈ i.titles ∧ ¬ Used i.titles title := by
  have hpower : "power_source.".toList.getLast? = some '.' := by decide
  have hgroup : "group.".toList.getLast? = some '.' := by decide
  -- `group.` and `power_source.` are read up to the first gap, plugs and inputs with the latter
  have hused : title ∈ fieldTitles ++ i.indexed "group." ++ i.indexed "power_source." ++
      (i.indices "power_source.").map (fun index ↦ "power_plug_src." ++ toString index) ++
      (i.indices "power_source.").map (fun index ↦ "power_input." ++ toString index) ↔
        Used i.titles title := by
    simp only [List.mem_append, RowInput.indexed, mem_map_indices hpower, mem_map_indices hgroup]
    constructor
    · rintro ((((hfield | ⟨k, hall, rfl⟩) | ⟨k, hall, rfl⟩) | ⟨k, hall, rfl⟩) | ⟨k, hall, rfl⟩)
      · exact .field hfield
      · exact .group hall
      · exact .power hall (mem_powerTitles.mpr (Or.inl rfl))
      · exact .power hall (mem_powerTitles.mpr (Or.inr (Or.inl rfl)))
      · exact .power hall (mem_powerTitles.mpr (Or.inr (Or.inr rfl)))
    · intro hused
      cases hused with
      | field hfield => exact Or.inl (Or.inl (Or.inl (Or.inl hfield)))
      | group hall => exact Or.inl (Or.inl (Or.inl (Or.inr ⟨_, hall, rfl⟩)))
      | power hall htitle =>
        rcases mem_powerTitles.mp htitle with rfl | rfl | rfl
        · exact Or.inl (Or.inl (Or.inr ⟨_, hall, rfl⟩))
        · exact Or.inl (Or.inr ⟨_, hall, rfl⟩)
        · exact Or.inr ⟨_, hall, rfl⟩
  -- behind the guard, which never holds, the skipped list is empty
  have hcolumns : unusedColumns i idStr = i.titles.filter fun title ↦
      title ∉ fieldTitles ++ i.indexed "group." ++ i.indexed "power_source." ++
        (i.indices "power_source.").map (fun index ↦ "power_plug_src." ++ toString index) ++
        (i.indices "power_source.").map (fun index ↦ "power_input." ++ toString index) ∧
          title ∉ ([] : List String) := by
    unfold unusedColumns
    rw [if_neg hrow]
    rfl
  rw [hcolumns, List.mem_filter, decide_eq_true_eq, hused]
  simp only [List.not_mem_nil, not_false_eq_true, and_true]

/-! ## The attributes -/

section

variable {σ : Type} {db : AssetsDb σ} {tools : Tools} {s : σ} {i : RowInput}
  {names : List (String × String)}

/-- What comes after the checks on a value. -/
theorem extAttribute_tail {key value : String} {r : Option (String × String)}
    (h : (do
      if key = "location_u_pos" ∧ value ≠ "" then checkUnits key value else pure ()
      if key = "u_size" ∧ value ≠ "" then checkUnits key value else pure ()
      return (matchExtAttr value key).map fun value ↦ (key, value)) = Except.ok r) :
    (matchExtAttr value key).map (fun value ↦ (key, value)) = r := by
  have hunits {x : Except Thrown (Option (String × String))} (hx : (do checkUnits key value; x) =
      Except.ok r) : x = .ok r := by
    obtain ⟨-, -, hx⟩ := bind_eq_ok.mp hx
    exact hx
  by_cases hpos : key = "location_u_pos" ∧ value ≠ ""
  · rw [if_pos hpos] at h
    have h := hunits h
    by_cases hsize : key = "u_size" ∧ value ≠ ""
    · rw [if_pos hsize] at h
      exact pure_eq_ok.mp (hunits h)
    · rw [if_neg hsize] at h
      exact pure_eq_ok.mp h
  · rw [if_neg hpos] at h
    by_cases hsize : key = "u_size" ∧ value ≠ ""
    · rw [if_pos hsize] at h
      exact pure_eq_ok.mp (hunits h)
    · rw [if_neg hsize] at h
      exact pure_eq_ok.mp h

/-- An attribute that is kept holds the checked value of its column. -/
theorem extAttribute_some {key : String} {attr : String × String}
    (h : extAttribute db tools s i names key = .ok (some attr)) :
    ∃ cell value, checkedValue db tools s names key cell = .ok value ∧
      matchExtAttr value key = some attr.2 ∧ attr.1 = key := by
  simp only [extAttribute, bind_eq_ok] at h
  obtain ⟨cell, -, h⟩ := h
  split at h
  all_goals
    simp only [bind_eq_ok] at h
    obtain ⟨cell', -, value, hvalue, h⟩ := h
    obtain ⟨v, hv, rfl⟩ := Option.map_eq_some_iff.mp (extAttribute_tail h)
    exact ⟨cell', value, hvalue, hv, rfl⟩

/-- A row whose names are sanitized has a cell in each of its columns. -/
theorem cell_of_sanitized (h : sanitizeRowExtNames db s i = .ok names) {title : String}
    (htitle : title ∈ i.titles) : ∃ value, i.cell title = .ok value := by
  simp only [sanitizeRowExtNames, bind_eq_ok] at h
  obtain ⟨result, hresult, _⟩ := h
  obtain ⟨_, _, hcell⟩ := mapM_ok_image hresult htitle
  simp only [bind_eq_ok] at hcell
  obtain ⟨value, hvalue, _⟩ := hcell
  exact ⟨value, hvalue⟩

end

end FtyRest.Db
