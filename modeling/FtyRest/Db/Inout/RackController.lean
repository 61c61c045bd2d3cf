import FtyRest.Db.Inout.RowColumns
import FtyRest.Db.Inout.RowTrace

/-!
# The row of the rack controller

What is written of the hardware of `rackcontroller-0` when its own row is imported.
-/

namespace FtyRest.Db

open Shared Checks

/-- The columns of the hardware attributes. -/
def RowInput.hwTitles (i : RowInput) : List String :=
  i.indexed "ip." ++ i.indexed "ipv6." ++ ["fqdn", "serial_no", "model", "manufacturer", "uuid"]

/-- The keys whose values are converted or checked. -/
def checkedKeys : List String :=
  ["warranty_end", "_date", "logical_asset", "calibration_offset_t", "calibration_offset_h",
    "max_current", "max_power", "location_u_pos", "u_size"]

section

variable {σ : Type} {db : AssetsDb σ} {tools : Tools} {s : σ} {i : RowInput} {plan : RowPlan}
  {names : List (String × String)}

/-- Any other attribute is taken as it is, unless it is empty. -/
theorem extAttribute_unchecked {key : String} (h : key ∉ checkedKeys) :
    extAttribute db tools s i names key =
      (i.cell key).map fun value ↦ if value ≠ "" then some (key, value) else none := by
  simp only [checkedKeys, List.mem_cons, List.not_mem_nil, or_false, not_or] at h
  have ⟨hwarranty, hdate, hlogical, hoffsett, hoffseth, hcurrent, hpower, hpos, hsize⟩ := h
  unfold extAttribute
  cases i.cell key with
  | error e => rfl
  | ok value =>
    have hdate : isDate key = false := by
      rw [isDate, decide_eq_false hwarranty, decide_eq_false hdate]
      rfl
    -- no check is made for this key
    have hchecked : checkedValue db tools s names key value = .ok value := by
      unfold checkedValue
      rw [if_neg fun h ↦ hlogical h.1, if_neg, if_neg]
      · intro h
        rcases h.1 with h | h
        · exact hcurrent h
        · exact hpower h
      · intro h
        rcases h.1 with h | h
        · exact hoffsett h
        · exact hoffseth h
    have hmatch : matchExtAttr value key = if value ≠ "" then some value else none := by
      rw [matchExtAttr, if_neg hsize]
    simp only [ok_bind, hdate, Bool.false_eq_true, false_and, if_false, pure_bind, hchecked, hpos,
      hsize, hmatch]
    show Except.ok _ = Except.ok _
    by_cases hvalue : value = "" <;> simp [hvalue]

theorem mem_hwTitles {title : String} : title ∈ i.hwTitles ↔
    (∃ item ∈ ["ip.", "ipv6."], ∃ k, (∀ j ≤ k, numbered item j ∈ i.titles) ∧
      title = numbered item k) ∨
        title ∈ ["fqdn", "serial_no", "model", "manufacturer", "uuid"] := by
  have hip : "ip.".toList.getLast? = some '.' := by decide
  have hipv6 : "ipv6.".toList.getLast? = some '.' := by decide
  rw [RowInput.hwTitles, List.mem_append, List.mem_append, RowInput.indexed, RowInput.indexed,
    mem_map_indices hip, mem_map_indices hipv6]
  simp only [List.mem_cons, List.not_mem_nil, or_false, exists_eq_or_imp, exists_eq_left]
  rfl

theorem hwTitles_unchecked {title : String} (h : title ∈ i.hwTitles) : title ∉ checkedKeys := by
  rcases mem_hwTitles.mp h with ⟨item, hitem, k, _, rfl⟩ | hfixed
  · have hpoint : ∀ item ∈ ["ip.", "ipv6."], '.' ∈ item.toList := by decide
    have hkeys : ∀ key ∈ checkedKeys, '.' ∉ key.toList := by decide
    exact fun hkey ↦ hkeys _ hkey (point_mem_numbered (hpoint item hitem) k)
  · have hkeys : ∀ key ∈ ["fqdn", "serial_no", "model", "manufacturer", "uuid"],
        key ∉ checkedKeys := by
      decide
    exact hkeys title hfixed

theorem hwTitles_not_used {title : String} (h : title ∈ i.hwTitles) :
    ¬ Used i.titles title := by
  -- the numbered addresses, and five titles without a point
  rcases mem_hwTitles.mp h with ⟨item, hitem, k, _, rfl⟩ | hfixed
  · have hitems : ∀ item ∈ ["ip.", "ipv6."], item.toList.getLast? = some '.' ∧
        item ∉ ["group.", "power_source.", "power_plug_src.", "power_input."] := by
      decide
    have ⟨hpoint, hother⟩ := hitems item hitem
    have hne {other : String} {j : Nat} (hlast : other.toList.getLast? = some '.')
        (hmem : other ∈ ["group.", "power_source.", "power_plug_src.", "power_input."]) :
        numbered item k ≠ numbered other j := by
      intro heq
      rw [((numbered_inj hpoint hlast).mp heq).1] at hother
      exact hother hmem
    intro hused
    generalize htitle : numbered item k = title at hused
    cases hused with
    | field hfield =>
      have hfields : ∀ title ∈ fieldTitles, '.' ∉ title.toList := by decide
      rw [← htitle] at hfield
      exact hfields _ hfield (point_mem_numbered (List.mem_of_getLast? hpoint) k)
    | group _ => exact hne (by decide) (by decide) htitle
    | power _ hpower =>
      rw [← htitle] at hpower
      rcases mem_powerTitles.mp hpower with heq | heq | heq
      · exact hne (by decide) (by decide) heq
      · exact hne (by decide) (by decide) heq
      · exact hne (by decide) (by decide) heq
  · have hpoint : ∀ title ∈ ["fqdn", "serial_no", "model", "manufacturer", "uuid"],
        '.' ∉ title.toList ∧ title ∉ fieldTitles := by
      decide
    have ⟨hno, hfield⟩ := hpoint title hfixed
    exact fun hused ↦ hfield (field_of_used hused hno)

/-- The row of the rack controller is identified before its columns are gone through. -/
theorem rowIdStr_controller (hrc0 : i.rc0 = i.row) {idStr : String} (h : rowIdStr i = .ok idStr) :
    idStr = "rackcontroller-0" := by
  have hcell (cell : String) (h : (if i.rc0 ≠ i.row ∧ "rackcontroller-0" = cell ∧
      i.rc0 ≠ 2 ^ 64 - 1 then "" else if i.rc0 = i.row ∧ cell ≠ "rackcontroller-0" then
        "rackcontroller-0" else cell) = idStr) : idStr = "rackcontroller-0" := by
    rw [if_neg fun h ↦ h.1 hrc0] at h
    by_cases hcell : cell = "rackcontroller-0"
    · rw [if_neg fun h ↦ h.2 hcell] at h
      exact h.symm.trans hcell
    · rw [if_pos ⟨hrc0, hcell⟩] at h
      exact h.symm
  unfold rowIdStr at h
  split at h
  · have ⟨cell, _, h⟩ := bind_eq_ok.mp h
    exact hcell cell (pure_eq_ok.mp h)
  · exact hcell "" (pure_eq_ok.mp h)

/-- An attribute of the hardware is passed on when its cell is not empty. -/
theorem hwTitle_mem_ext {idStr ename type subtype : String} {ext : List (String × String)}
    (hrow : ¬ (i.rc0 = i.row ∧ idStr ≠ "rackcontroller-0"))
    (hext : rowExtAttributes db tools s i names idStr ename type subtype = .ok ext)
    {title : String} (h : title ∈ i.hwTitles) :
    title ∈ ext.map Prod.fst ↔
      ∃ value, title ∈ i.titles ∧ i.cell title = .ok value ∧ value ≠ "" := by
  have hunused : title ∈ unusedColumns i idStr ↔ title ∈ i.titles := by
    rw [mem_unusedColumns_iff hrow]
    exact and_iff_left (hwTitles_not_used h)
  have hfixed : ∀ other ∈ ["name", "type"], title ≠ other := by
    have hother : ∀ other ∈ ["name", "type"], '.' ∉ other.toList ∧
        other ∉ ["fqdn", "serial_no", "model", "manufacturer", "uuid"] := by
      decide
    intro other hmem heq
    subst heq
    obtain ⟨hpoint, hother⟩ := hother title hmem
    rcases mem_hwTitles.mp h with ⟨item, hitem, k, _, rfl⟩ | hfixed
    · have hitems : ∀ item ∈ ["ip.", "ipv6."], '.' ∈ item.toList := by decide
      exact hpoint (point_mem_numbered (hitems item hitem) k)
    · exact hother hfixed
  simp only [rowExtAttributes, bind_eq_ok, pure_eq_ok] at hext
  obtain ⟨found, hfound, rfl⟩ := hext
  -- neither the name nor the type of a group is a title of the hardware
  have hmem : title ∈ (("name", ename) :: found.filterMap id ++
      if type = "group" then [("type", subtype)] else []).map Prod.fst ↔
        ∃ value, some (title, value) ∈ found := by
    have htype : title ∉ (if type = "group" then [("type", subtype)] else []).map Prod.fst := by
      split
      · rw [List.map_singleton, List.mem_singleton]
        exact hfixed "type" (by decide)
      · exact List.not_mem_nil
    rw [List.map_append, List.mem_append, or_iff_left htype, List.map_cons, List.mem_cons,
      or_iff_right (hfixed "name" (by decide))]
    simp only [List.mem_map, List.mem_filterMap, id_eq, exists_eq_right, Prod.exists]
    constructor
    · rintro ⟨_, value, hvalue, rfl⟩
      exact ⟨value, hvalue⟩
    · rintro ⟨value, hvalue⟩
      exact ⟨title, value, hvalue, rfl⟩
  rw [hmem]
  constructor
  · rintro ⟨value, hvalue⟩
    obtain ⟨key, hkey, hattr⟩ := mapM_ok_mem hfound hvalue
    obtain ⟨_, _, _, _, rfl⟩ := extAttribute_some hattr
    rw [extAttribute_unchecked (hwTitles_unchecked h), map_eq_ok] at hattr
    obtain ⟨cell, hcell, heq⟩ := hattr
    by_cases hne : cell = ""
    · rw [if_neg (not_not_intro hne)] at heq
      cases heq
    · exact ⟨cell, hunused.mp hkey, hcell, hne⟩
  · rintro ⟨value, htitle, hcell, hne⟩
    obtain ⟨attr, hattr, heq⟩ := mapM_ok_image hfound (hunused.mpr htitle)
    rw [extAttribute_unchecked (hwTitles_unchecked h), hcell] at heq
    have heq : (if value ≠ "" then some (title, value) else none) = attr := Except.ok.inj heq
    rw [if_pos hne] at heq
    exact ⟨value, heq ▸ hattr⟩

/-- The row of the rack controller writes none of its hardware attributes exactly when their cells
are empty: the columns are left out for another `id_str` only, and it is `rackcontroller-0` by
then. -/
theorem hwAttributes_left_out_iff (hrc0 : i.rc0 = i.row)
    (h : readRow db tools s i = .ok plan) :
    (∀ attr ∈ (plan.write plan.iname (updateRO i.cm)).extattributes, attr.1 ∉ i.hwTitles) ↔
      ∀ title ∈ i.hwTitles, title ∈ i.titles → i.cell title = .ok "" := by
  have ⟨names, hsteps⟩ := readRow_steps h
  have hidStr := rowIdStr_controller hrc0 hsteps.idStr
  have hrow : ¬ (i.rc0 = i.row ∧ plan.idStr ≠ "rackcontroller-0") := fun h ↦ h.2 hidStr
  show (∀ attr ∈ plan.ext, attr.1 ∉ i.hwTitles) ↔ _
  constructor
  · intro hnone title hhw htitle
    have ⟨value, hcell⟩ := cell_of_sanitized hsteps.sanitized htitle
    by_cases hne : value = ""
    · rw [hcell, hne]
    · have ⟨attr, hattr, heq⟩ := List.mem_map.mp
        ((hwTitle_mem_ext hrow hsteps.ext hhw).mpr ⟨value, htitle, hcell, hne⟩)
      rw [← heq] at hhw
      exact absurd hhw (hnone attr hattr)
  · intro hempty attr hattr hhw
    have ⟨value, htitle, hcell, hne⟩ := (hwTitle_mem_ext hrow hsteps.ext hhw).mp
      (List.mem_map.mpr ⟨attr, hattr, rfl⟩)
    rw [hempty attr.1 hhw htitle] at hcell
    exact hne (Except.ok.inj hcell).symm

end

/-! ## The own row of a rack controller -/

/-- The database with the rack controller alone. -/
def controllerDb : AssetsDb String :=
  { oneUps {} with
    nameToAssetId := fun _ name ↦ if name = "rackcontroller-0" then 1 else -1
    extnameToAssetName := fun _ extname ↦
      if extname = "RC" then (0, "rackcontroller-0") else (-1, "")
    selectAssetElementWebById := fun _ id ↦
      if id = 1 then .ok ⟨AssetType.device, 2, "rack controller"⟩ else .error .notFound }

/-- Its own row, with a serial number. -/
def controllerRow (serialNo : String) : RowInput where
  cm := {
    data := [["id", "name", "type", "sub_type", "location", "status", "priority", "serial_no"],
      ["rackcontroller-0", "RC", "device", "rackcontroller", "", "active", "P1", serialNo]]
    titleToIndex :=
      ["id", "name", "type", "sub_type", "location", "status", "priority", "serial_no"].zipIdx }
  row := 1
  types := [("device", AssetType.device)]
  subtypes := [("patch panel", 3), ("rack controller", 2), ("ups", 1)]
  ids := []
  sanitize := true
  rc0 := 1
  limitations := { globalConfigurability := 1 }

def controllerPlan (ext : List (String × String)) : RowPlan where
  idStr := "rackcontroller-0"
  id := 1
  ename := "RC"
  iname := "rackcontroller-0"
  type := "device"
  typeId := AssetType.device
  status := "active"
  assetTag := ""
  priority := 1
  parentId := 0
  rackControllerId := 2
  subtype := "rackcontroller"
  subtypeId := 2
  groups := []
  links := []
  ext := ext

theorem hwAttributes_left_out_iff_serial :
    (∀ attr ∈ ((controllerPlan [("name", "RC"), ("serial_no", "G1")]).write "rackcontroller-0"
        (updateRO (controllerRow "G1").cm)).extattributes, attr.1 ∉ (controllerRow "G1").hwTitles) ↔
      ∀ title ∈ (controllerRow "G1").hwTitles, title ∈ (controllerRow "G1").titles →
        (controllerRow "G1").cell title = .ok "" := by
  have hread : readRow controllerDb plainTools "active" (controllerRow "G1") =
      .ok (controllerPlan [("name", "RC"), ("serial_no", "G1")]) := by decide
  exact hwAttributes_left_out_iff rfl hread

/-- The serial number in the own row of the rack controller is written. -/
theorem serial_no_is_written :
    readRow controllerDb plainTools "active" (controllerRow "G1") =
        .ok (controllerPlan [("name", "RC"), ("serial_no", "G1")]) ∧
      (controllerRow "G1").rc0 = (controllerRow "G1").row ∧
      ("serial_no", "G1") ∈ ((controllerPlan [("name", "RC"), ("serial_no", "G1")]).write
        "rackcontroller-0" (updateRO (controllerRow "G1").cm)).extattributes ∧
      "serial_no" ∈ (controllerRow "G1").hwTitles := by
  decide

end FtyRest.Db
