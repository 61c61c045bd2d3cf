import FtyRest.Db.Inout.RowTrace
import FtyRest.Db.TablesAssets

/-!
# The attributes that an update stores

The attribute table of an element after `update_dc_room_row_rack_group` and after `update_device`.
-/

namespace FtyRest.Db

open Checks

theorem mem_upsert_iff {readOnly : Bool} {rows : List ExtRow} {attr : String × String}
    {row : ExtRow} : row ∈ upsert readOnly rows attr ↔
      row = ⟨attr.1, attr.2, readOnly⟩ ∨ row ∈ rows ∧ row.keytag ≠ attr.1 := by
  unfold upsert
  -- `ON DUPLICATE KEY UPDATE`: the row with this key is replaced in its place
  by_cases hany : rows.any (·.keytag = attr.1) = true
  · rw [if_pos hany, List.mem_map]
    constructor
    · rintro ⟨old, hold, rfl⟩
      by_cases hkey : old.keytag = attr.1
      · rw [if_pos hkey]
        exact Or.inl rfl
      · rw [if_neg hkey]
        exact Or.inr ⟨hold, hkey⟩
    · rintro (rfl | ⟨hold, hkey⟩)
      · obtain ⟨old, hold, hkey⟩ := List.any_eq_true.mp hany
        exact ⟨old, hold, if_pos (of_decide_eq_true hkey)⟩
      · exact ⟨row, hold, if_neg hkey⟩
  · rw [if_neg hany, List.mem_append, List.mem_singleton]
    have hnone : ∀ old ∈ rows, old.keytag ≠ attr.1 := by
      intro old hold hkey
      exact hany (List.any_eq_true.mpr ⟨old, hold, decide_eq_true hkey⟩)
    constructor
    · rintro (hold | rfl)
      · exact Or.inr ⟨hold, hnone row hold⟩
      · exact Or.inl rfl
    · rintro (rfl | ⟨hold, -⟩)
      · exact Or.inr rfl
      · exact Or.inl hold

/-- The attributes are stored, and the rows with other keytags are left. -/
theorem mem_foldl_upsert_iff {readOnly : Bool} {rows : List ExtRow}
    {attrs : List (String × String)} (hnd : (attrs.map Prod.fst).Nodup) {row : ExtRow} :
    row ∈ attrs.foldl (upsert readOnly) rows ↔
      (row.keytag, row.value) ∈ attrs ∧ row.readOnly = readOnly ∨
        row ∈ rows ∧ row.keytag ∉ attrs.map Prod.fst := by
  induction attrs generalizing rows with
  | nil => simp
  | cons attr attrs ih =>
    obtain ⟨hnew, hrest⟩ := List.nodup_cons.mp hnd
    rw [List.foldl_cons, ih hrest, mem_upsert_iff, List.map_cons, List.mem_cons, List.mem_cons]
    constructor
    · rintro (⟨hmem, hro⟩ | ⟨rfl | ⟨hold, hkey⟩, hnot⟩)
      · exact Or.inl ⟨Or.inr hmem, hro⟩
      · exact Or.inl ⟨Or.inl rfl, rfl⟩
      · exact Or.inr ⟨hold, fun h ↦ h.elim hkey hnot⟩
    · rintro (⟨rfl | hmem, hro⟩ | ⟨hold, hnot⟩)
      · refine Or.inr ⟨Or.inl ?_, hnew⟩
        rw [← hro]
      · exact Or.inl ⟨hmem, hro⟩
      · exact Or.inr ⟨Or.inr ⟨hold, fun h ↦ hnot (Or.inl h)⟩, fun h ↦ hnot (Or.inr h)⟩

section

variable {σ : Type} {db : AssetsDb σ} {act : AssetActivator σ} {tables : σ → Tables}
  {tools : Tools} {s s' : σ} {a : AssetWrite} {elementId : Nat}

/-- The rows of the element after the old read-write ones are replaced. -/
def replacedExt (rows : List ExtRow) (attrs : List (String × String)) : List ExtRow :=
  attrs.foldl (upsert false) (rows.filter (·.readOnly ≠ false))

theorem insertExt_ext (t : Tables) (attrs : List (String × String)) (readOnly : Bool) :
    (t.insertExt elementId attrs readOnly).ext elementId =
      attrs.foldl (upsert readOnly) (t.ext elementId) :=
  Function.update_self _ _ _

theorem deleteExt_ext (t : Tables) (readOnly : Bool) :
    (t.deleteExt elementId readOnly).ext elementId =
      (t.ext elementId).filter (·.readOnly ≠ readOnly) :=
  Function.update_self _ _ _

theorem updateElement_ext (hdb : TablesLaws db act tables) {errmsg : String}
    (h : updateElement db tools s elementId a = .ok (s', errmsg)) :
    (tables s').ext elementId = replacedExt ((tables s).ext elementId) a.extattributes := by
  simp only [updateElement, bind_eq_ok, pure_eq_ok, require_eq_ok, Prod.mk.injEq] at h
  obtain ⟨-, hret1, -, hret2, -, hret3, rfl, -⟩ := h
  have hzero : (db.updateAssetElement s elementId (a.columns a.elementName)).2.1 = 0 := by
    by_contra hne
    exact hret1 ⟨hne, hdb.updateFails s elementId _ hne⟩
  rw [hdb.insertExt _ _ _ _ _ hret3, hdb.deleteExt _ _ _ hret2, hdb.updateElement _ _ _ hzero,
    insertExt_ext, deleteExt_ext]
  rfl

theorem updateElementRO_ext (hdb : TablesLaws db act tables)
    {attrs : Option (List (String × String))} {readOnly : Bool} {errmsg errmsg' : String}
    (h : updateElementRO db tools s elementId attrs readOnly errmsg = .ok (s', errmsg')) :
    (tables s').ext elementId =
      (attrs.getD []).foldl (upsert readOnly) ((tables s).ext elementId) := by
  cases attrs with
  | none =>
    simp only [updateElementRO, pure_eq_ok, Prod.mk.injEq] at h
    rw [← h.1]
    rfl
  | some attrs =>
    simp only [updateElementRO, bind_eq_ok, pure_eq_ok, require_eq_ok, Prod.mk.injEq] at h
    obtain ⟨-, hret31, rfl, -⟩ := h
    rw [hdb.insertExt _ _ _ _ _ hret31, insertExt_ext]
    rfl

theorem updateDeviceBody_ext (hdb : TablesLaws db act tables) {errmsg : String}
    (h : updateDeviceBody db tools s elementId a = .ok (s', errmsg)) :
    (tables s').ext elementId = (a.extattributesRO.getD []).foldl (upsert true)
      (replacedExt ((tables s).ext elementId) a.extattributes) := by
  simp only [updateDeviceBody, bind_eq_ok, pure_eq_ok, require_eq_ok, Prod.exists,
    Prod.mk.injEq] at h
  obtain ⟨-, -, s₁, errmsg₁, hupdate, s₂, errmsg₂, hro, -, hret4, -, hret5, -, hret6, -, hret7,
    rfl, -⟩ := h
  rw [hdb.insertLinks _ _ hret7, hdb.deleteLinks _ _ hret6, hdb.insertGroups _ _ _ hret5,
    hdb.deleteGroups _ _ hret4]
  show (tables s₂).ext elementId = _
  rw [updateElementRO_ext hdb hro, updateElement_ext hdb hupdate]

/-- The read-write attributes are inserted twice when read-only ones are given. -/
theorem updateDcRoomRowRackGroupBody_ext (hdb : TablesLaws db act tables) {errmsg : String}
    (h : updateDcRoomRowRackGroupBody db tools s elementId a = .ok (s', errmsg)) :
    (tables s').ext elementId =
      ((a.extattributesRO.map fun _ ↦ a.extattributes).getD []).foldl (upsert false)
        (replacedExt ((tables s).ext elementId) a.extattributes) := by
  simp only [updateDcRoomRowRackGroupBody, bind_eq_ok, pure_eq_ok, require_eq_ok, Prod.exists,
    Prod.mk.injEq] at h
  obtain ⟨-, -, s₁, errmsg₁, hupdate, s₂, errmsg₂, hro, -, hret4, -, hret5, rfl, -⟩ := h
  rw [hdb.insertGroups _ _ _ (hdb.allGroups hret5), hdb.deleteGroups _ _ hret4]
  show (tables s₂).ext elementId = _
  rw [updateElementRO_ext hdb hro, updateElement_ext hdb hupdate]

/-- The table holds the attributes `ext` as read-write and `ro` as read-only ones, and what was
read-only before under other keytags. -/
def Stores (old : List ExtRow) (ext ro : List (String × String)) (rows : List ExtRow) : Prop :=
  ∀ row, row ∈ rows ↔ (row.keytag, row.value) ∈ ext ∧ row.readOnly = false ∨
    (row.keytag, row.value) ∈ ro ∧ row.readOnly = true ∨
      row ∈ old ∧ row.readOnly = true ∧ row.keytag ∉ ext.map Prod.fst ∧
        row.keytag ∉ ro.map Prod.fst

theorem mem_replacedExt {old : List ExtRow} {ext : List (String × String)}
    (hext : (ext.map Prod.fst).Nodup) {row : ExtRow} : row ∈ replacedExt old ext ↔
      (row.keytag, row.value) ∈ ext ∧ row.readOnly = false ∨
        row ∈ old ∧ row.readOnly = true ∧ row.keytag ∉ ext.map Prod.fst := by
  rw [replacedExt, mem_foldl_upsert_iff hext, List.mem_filter]
  simp [and_assoc]

theorem mem_map_fst {attrs : List (String × String)} {key value : String}
    (h : (key, value) ∈ attrs) : key ∈ attrs.map Prod.fst :=
  List.mem_map.mpr ⟨_, h, rfl⟩

/-- The two rows of a keytag are one. -/
theorem row_eq_of_keytag {rows : List ExtRow} (hnd : (rows.map ExtRow.keytag).Nodup)
    {row row' : ExtRow} (hrow : row ∈ rows) (hrow' : row' ∈ rows)
    (hkey : row.keytag = row'.keytag) : row = row' :=
  List.inj_on_of_nodup_map hnd hrow hrow' hkey

theorem replacedExt_nodup {old : List ExtRow} {ext : List (String × String)}
    (hold : (old.map ExtRow.keytag).Nodup) : ((replacedExt old ext).map ExtRow.keytag).Nodup :=
  foldl_upsert_nodup (hold.sublist (List.filter_sublist.map _))

/-- A device stores what it is given, unless a keytag is given both as read-write and as
read-only. -/
theorem stores_device_iff {old : List ExtRow} {ext ro : List (String × String)}
    (hold : (old.map ExtRow.keytag).Nodup) (hext : (ext.map Prod.fst).Nodup)
    (hro : (ro.map Prod.fst).Nodup) :
    Stores old ext ro (ro.foldl (upsert true) (replacedExt old ext)) ↔
      ∀ key ∈ ext.map Prod.fst, key ∉ ro.map Prod.fst := by
  constructor
  · rintro h key hkey hkey'
    obtain ⟨⟨_, value⟩, hmem, rfl⟩ := List.mem_map.mp hkey
    obtain ⟨⟨_, value'⟩, hmem', rfl⟩ := List.mem_map.mp hkey'
    have hrow := (h ⟨_, value, false⟩).mpr (Or.inl ⟨hmem, rfl⟩)
    have hrow' := (h ⟨_, value', true⟩).mpr (Or.inr (Or.inl ⟨hmem', rfl⟩))
    have heq := row_eq_of_keytag (foldl_upsert_nodup (replacedExt_nodup hold)) hrow hrow' rfl
    exact Bool.noConfusion (congrArg ExtRow.readOnly heq)
  · intro hdisjoint row
    rw [mem_foldl_upsert_iff hro, mem_replacedExt hext]
    constructor
    · rintro (hnew | ⟨hrow | ⟨hmem, hreadOnly, hkey⟩, hkey'⟩)
      · exact Or.inr (Or.inl hnew)
      · exact Or.inl hrow
      · exact Or.inr (Or.inr ⟨hmem, hreadOnly, hkey, hkey'⟩)
    · rintro (⟨hmem, hreadOnly⟩ | hnew | ⟨hmem, hreadOnly, hkey, hkey'⟩)
      · exact Or.inr ⟨Or.inl ⟨hmem, hreadOnly⟩, hdisjoint _ (mem_map_fst hmem)⟩
      · exact Or.inl hnew
      · exact Or.inr ⟨Or.inr ⟨hmem, hreadOnly, hkey⟩, hkey'⟩

/-- The rows that an update of anything but a device leaves: no read-only attribute is new. -/
theorem mem_replacedExt_twice {old : List ExtRow} {ext : List (String × String)}
    (hext : (ext.map Prod.fst).Nodup) {ro : Option (List (String × String))} {row : ExtRow} :
    row ∈ ((ro.map fun _ ↦ ext).getD []).foldl (upsert false) (replacedExt old ext) ↔
      row ∈ replacedExt old ext := by
  cases ro with
  | none => rfl
  | some ro =>
    show row ∈ ext.foldl (upsert false) (replacedExt old ext) ↔ _
    rw [mem_foldl_upsert_iff hext, mem_replacedExt hext]
    constructor
    · rintro (h | ⟨h, -⟩)
      · exact Or.inl h
      · exact h
    · rintro (h | ⟨hmem, hreadOnly, hkey⟩)
      · exact Or.inl h
      · exact Or.inr ⟨Or.inr ⟨hmem, hreadOnly, hkey⟩, hkey⟩

/-- The two updates store the attributes that they are given, and alike, exactly when no keytag is
given twice and every read-only attribute is there already. -/
theorem updates_store_alike_iff (hdb : TablesLaws db act tables) {s₁ s₂ : σ}
    {errmsg₁ errmsg₂ : String} (hold : (((tables s).ext elementId).map ExtRow.keytag).Nodup)
    (hext : (a.extattributes.map Prod.fst).Nodup)
    (hro : ((a.extattributesRO.getD []).map Prod.fst).Nodup)
    (h₁ : updateDcRoomRowRackGroup db tools s elementId a = (s₁, 0, errmsg₁))
    (h₂ : updateDevice db tools s elementId a = (s₂, 0, errmsg₂)) :
    (Stores ((tables s).ext elementId) a.extattributes (a.extattributesRO.getD [])
          ((tables s₁).ext elementId) ∧
        Stores ((tables s).ext elementId) a.extattributes (a.extattributesRO.getD [])
          ((tables s₂).ext elementId) ∧
        ∀ row, row ∈ (tables s₁).ext elementId ↔ row ∈ (tables s₂).ext elementId) ↔
      (∀ key ∈ a.extattributes.map Prod.fst, key ∉ (a.extattributesRO.getD []).map Prod.fst) ∧
        ∀ attr ∈ a.extattributesRO.getD [], ⟨attr.1, attr.2, true⟩ ∈ (tables s).ext elementId := by
  rw [updateDcRoomRowRackGroupBody_ext hdb (updateDcRoomRowRackGroup_ok_iff.mp h₁),
    updateDeviceBody_ext hdb (updateDevice_ok_iff.mp h₂)]
  generalize (tables s).ext elementId = old at *
  -- the read-write attributes are stored once more, which changes nothing
  have hgroup : ∀ row, row ∈ ((a.extattributesRO.map fun _ ↦ a.extattributes).getD []).foldl
      (upsert false) (replacedExt old a.extattributes) ↔ _ := fun row ↦
    (mem_replacedExt_twice hext).trans (mem_replacedExt hext)
  generalize a.extattributesRO.getD [] = ro at *
  generalize a.extattributes = ext at *
  rw [stores_device_iff hold hext hro]
  constructor
  · rintro ⟨hdc, hdisjoint, -⟩
    refine ⟨hdisjoint, fun attr hattr ↦ ?_⟩
    have hrow := (hdc ⟨attr.1, attr.2, true⟩).mpr (Or.inr (Or.inl ⟨hattr, rfl⟩))
    rcases (hgroup _).mp hrow with ⟨-, hfalse⟩ | ⟨hmem, -⟩
    · exact Bool.noConfusion hfalse
    · exact hmem
  · rintro ⟨hdisjoint, hthere⟩
    have hdc : Stores old ext ro (((a.extattributesRO.map fun _ ↦ ext).getD []).foldl
        (upsert false) (replacedExt old ext)) := by
      intro row
      rw [hgroup]
      constructor
      · rintro (hrow | ⟨hmem, hreadOnly, hkey⟩)
        · exact Or.inl hrow
        · by_cases hkey' : row.keytag ∈ ro.map Prod.fst
          · -- the old value is the one that is given
            obtain ⟨attr, hattr, hkeytag⟩ := List.mem_map.mp hkey'
            have heq := row_eq_of_keytag hold hmem (hthere attr hattr) hkeytag.symm
            rw [heq]
            exact Or.inr (Or.inl ⟨hattr, rfl⟩)
          · exact Or.inr (Or.inr ⟨hmem, hreadOnly, hkey, hkey'⟩)
      · rintro (hrow | ⟨hmem, hreadOnly⟩ | ⟨hmem, hreadOnly, hkey, -⟩)
        · exact Or.inl hrow
        · have hrow := hthere _ hmem
          rw [← hreadOnly] at hrow
          exact Or.inr ⟨hrow, hreadOnly, fun hkey ↦ hdisjoint _ hkey (mem_map_fst hmem)⟩
        · exact Or.inr ⟨hmem, hreadOnly, hkey⟩
    refine ⟨hdc, hdisjoint, fun row ↦ ?_⟩
    rw [hdc row, (stores_device_iff hold hext hro).mpr hdisjoint row]

end

/-! ## A room that was created by a user -/

def roomTables : Tables where
  elements := [⟨2, "room-2", AssetType.room, 0, 0, "active", 1, ""⟩]
  ext := fun id ↦ if id = 2 then [⟨"name", "Room", false⟩, ⟨"create_mode", "1", true⟩] else []
  links := fun _ ↦ []
  groups := fun _ ↦ []

def roomWrite (ro : List (String × String)) : AssetWrite where
  elementName := "room-2"
  parentId := 0
  extattributes := [("name", "Big room")]
  status := "active"
  priority := 1
  groups := []
  assetTag := ""
  extattributesRO := some ro

theorem updates_store_alike_iff_room :
    (Stores (roomTables.ext 2) [("name", "Big room")] [("create_mode", "1")]
          ((updateDcRoomRowRackGroup tablesAssets plainTools roomTables 2
            (roomWrite [("create_mode", "1")])).1.ext 2) ∧
        Stores (roomTables.ext 2) [("name", "Big room")] [("create_mode", "1")]
          ((updateDevice tablesAssets plainTools roomTables 2
            (roomWrite [("create_mode", "1")])).1.ext 2) ∧
        ∀ row, row ∈ (updateDcRoomRowRackGroup tablesAssets plainTools roomTables 2
            (roomWrite [("create_mode", "1")])).1.ext 2 ↔
          row ∈ (updateDevice tablesAssets plainTools roomTables 2
            (roomWrite [("create_mode", "1")])).1.ext 2) ↔
      (∀ key ∈ [("name", "Big room")].map Prod.fst, key ∉ [("create_mode", "1")].map Prod.fst) ∧
        ∀ attr ∈ [("create_mode", "1")], ⟨attr.1, attr.2, true⟩ ∈ roomTables.ext 2 := by
  have h₁ : updateDcRoomRowRackGroup tablesAssets plainTools roomTables 2
      (roomWrite [("create_mode", "1")]) = (_, 0, "") := rfl
  have h₂ : updateDevice tablesAssets plainTools roomTables 2
      (roomWrite [("create_mode", "1")]) = (_, 0, "") := rfl
  exact updates_store_alike_iff tablesAssets_laws (by decide) (by decide) (by decide) h₁ h₂

/-- The time of an update is stored for a device, and for a room it is not. -/
theorem room_loses_update_ts :
    (updateDcRoomRowRackGroup tablesAssets plainTools roomTables 2
        (roomWrite [("update_ts", "1")])).2 = (0, "") ∧
      (updateDevice tablesAssets plainTools roomTables 2 (roomWrite [("update_ts", "1")])).2 =
        (0, "") ∧
      (updateDcRoomRowRackGroup tablesAssets plainTools roomTables 2
        (roomWrite [("update_ts", "1")])).1.ext 2 =
          [⟨"create_mode", "1", true⟩, ⟨"name", "Big room", false⟩] ∧
      (updateDevice tablesAssets plainTools roomTables 2
        (roomWrite [("update_ts", "1")])).1.ext 2 =
          [⟨"create_mode", "1", true⟩, ⟨"name", "Big room", false⟩, ⟨"update_ts", "1", true⟩] ∧
      ¬ Stores (roomTables.ext 2) [("name", "Big room")] [("update_ts", "1")]
        ((updateDcRoomRowRackGroup tablesAssets plainTools roomTables 2
          (roomWrite [("update_ts", "1")])).1.ext 2) := by
  refine ⟨rfl, rfl, by decide, by decide, fun h ↦ ?_⟩
  have hrow := (h ⟨"update_ts", "1", true⟩).mpr (Or.inr (Or.inl ⟨by decide, rfl⟩))
  exact absurd hrow (by decide)

end FtyRest.Db
