import FtyRest.Db.Tables

/-!
# A database that is its tables

The library over the tables themselves, which answers every query.
-/

namespace FtyRest.Db

/-- The external name of the element `id`. -/
def Tables.extname (t : Tables) (id : Nat) : Option String :=
  ((t.ext id).find? (·.keytag = "name")).map ExtRow.value

/-- The element with an external name. -/
def Tables.byExtname (t : Tables) (extname : String) : Option ElementRow :=
  t.elements.find? fun e ↦ t.extname e.id = some extname

/-- The element that an insertion makes: its id is new, and a part of its name. -/
def Tables.newElement (t : Tables) (c : ElementColumns) (typeId subtypeId : Nat) : ElementRow where
  id := (t.elements.map ElementRow.id).foldr max 0 + 1
  name := c.name ++ "-" ++ toString ((t.elements.map ElementRow.id).foldr max 0 + 1)
  typeId := typeId
  subtypeId := subtypeId
  parentId := c.parentId
  status := c.status
  priority := c.priority
  assetTag := c.assetTag

def tablesAssets : AssetsDb Tables where
  nameToAssetId t name :=
    match t.elements.find? (·.name = name) with
    | some e => e.id
    | none => -1
  extnameToAssetId t extname :=
    match t.byExtname extname with
    | some e => e.id
    | none => -1
  extnameToAssetName t extname :=
    match t.byExtname extname with
    | some e => (0, e.name)
    | none => (-1, "")
  isOkName _ := true
  rowByName t name := .ok ((t.elements.find? (·.name = name)).map ElementRow.id)
  rowByExtname t extname := .ok ((t.byExtname extname).map ElementRow.id)
  selectAssetElementWebById t id :=
    match t.elements.find? (·.id = id) with
    | some e => .ok ⟨e.typeId, e.subtypeId, "N_A"⟩
    | none => .error .notFound
  getStatusFromDbHelper t name :=
    ((t.elements.find? (·.name = name)).map ElementRow.status).getD "unknown"
  selectMonitorDeviceTypeId _ _ := .error { status := 0, errsubtype := .notFound }
  getJsonAsset _ _ := .ok ""
  typeidToType _ := "asset"
  subtypeidToSubtype _ := "device"
  updateAssetElement t id c := (t.updateElement id c, 0, 1)
  insertIntoAssetElement t c typeId subtypeId :=
    let e := t.newElement c typeId subtypeId
    if ∀ e' ∈ t.elements, e'.id ≠ e.id ∧ e'.name ≠ e.name then
      (t.insertElement e, { affectedRows := 1, rowid := e.id })
    else (t, { status := 0 })
  deleteAssetExtAttributesWithRo t id readOnly := (t.deleteExt id readOnly, {})
  insertIntoAssetExtAttributes t id attrs readOnly errmsg :=
    (t.insertExt id attrs readOnly, {}, errmsg)
  deleteAssetElementFromAssetGroups t id := (t.deleteGroups id, {})
  insertElementIntoGroups t groups id :=
    (t.insertGroups groups id, { affectedRows := groups.length })
  deleteAssetLinksTo t id := (t.deleteLinks id, {})
  insertIntoAssetLinks t links := (t.insertLinks links, { affectedRows := links.length })
  insertIntoMonitorDevice t _ _ := (t, {})
  insertIntoMonitorAssetRelation t _ _ := (t, {})

/-- A licensing that sets no status. -/
def idleActivator : AssetActivator Tables where
  activate w _ := ({ w with store := w.store.setStatus fun _ status ↦ status }, .ok ())
  deactivate w _ := ({ w with store := w.store.setStatus fun _ status ↦ status }, .ok ())

theorem tablesAssets_laws : TablesLaws tablesAssets idleActivator id where
  select t i element h := by
    simp only [tablesAssets] at h
    split at h
    · rename_i e hfind
      obtain rfl := Except.ok.inj h
      exact ⟨e, List.mem_of_find?_eq_some hfind, by simpa using List.find?_some hfind, rfl⟩
    · simp at h
  rowByName t name i h := by
    obtain ⟨e, hfind, rfl⟩ := Option.map_eq_some_iff.mp (Except.ok.inj h)
    exact ⟨e, List.mem_of_find?_eq_some hfind, rfl, by simpa using List.find?_some hfind⟩
  rowByExtname t extname i h := by
    obtain ⟨e, hfind, rfl⟩ := Option.map_eq_some_iff.mp (Except.ok.inj h)
    refine ⟨⟨e, List.mem_of_find?_eq_some hfind, rfl⟩, ?_⟩
    simp only [tablesAssets, hfind]
  extname t extname h := by
    simp only [tablesAssets] at h ⊢
    split
    · rename_i e hfind
      exact ⟨e, List.mem_of_find?_eq_some hfind, rfl⟩
    · rename_i hfind
      simp [hfind] at h
  updateElement _ _ _ _ := rfl
  updateFails _ _ _ h := absurd rfl h
  insertElement t c typeId subtypeId h := by
    simp only [tablesAssets] at h ⊢
    by_cases hnew : ∀ e' ∈ t.elements, e'.id ≠ (t.newElement c typeId subtypeId).id ∧
        e'.name ≠ (t.newElement c typeId subtypeId).name
    · rw [if_pos hnew]
      refine ⟨t.newElement c typeId subtypeId, rfl, rfl, Nat.succ_ne_zero _, ?_, hnew, rfl⟩
      intro hempty
      have hlength := congrArg String.length hempty
      simp [Tables.newElement, String.length_append] at hlength
    · rw [if_neg hnew] at h
      exact absurd rfl h
  deleteExt _ _ _ _ := rfl
  insertExt _ _ _ _ _ _ := rfl
  deleteGroups _ _ _ := rfl
  insertGroups _ _ _ _ := rfl
  groupsReply _ _ _ _ := rfl
  deleteLinks _ _ _ := rfl
  insertLinks _ _ _ := rfl
  insertMonitor _ _ _ := rfl
  insertRelation _ _ _ := rfl
  activate _ _ := ⟨fun _ status ↦ status, rfl⟩
  deactivate _ _ := ⟨fun _ status ↦ status, rfl⟩

end FtyRest.Db
