import FtyRest.Db.Inout.ProcessRow
import Mathlib.Logic.Function.Basic

/-!
# The tables

The tables of the database as far as an import writes them, and what is known of the functions of
the library in terms of them.
-/

namespace FtyRest.Db

open Checks

/-- A row of the table of elements; an element that is not located has the parent `0`. -/
structure ElementRow where
  id : Nat
  name : String
  typeId : Nat
  subtypeId : Nat
  parentId : Nat
  status : String
  priority : Nat
  assetTag : String
deriving DecidableEq, Repr

structure ExtRow where
  keytag : String
  value : String
  readOnly : Bool
deriving DecidableEq, Repr

/-- The ext attributes, the power links and the groups are kept by the id of their element. -/
structure Tables where
  elements : List ElementRow
  ext : Nat → List ExtRow
  links : Nat → List Link
  groups : Nat → List Nat

/-- An attribute replaces the one of the same keytag. -/
def upsert (readOnly : Bool) (rows : List ExtRow) (attr : String × String) : List ExtRow :=
  if rows.any (·.keytag = attr.1) then
    rows.map fun row ↦ if row.keytag = attr.1 then ⟨attr.1, attr.2, readOnly⟩ else row
  else rows ++ [⟨attr.1, attr.2, readOnly⟩]

namespace Tables

variable (t : Tables)

def updateElement (id : Nat) (c : ElementColumns) : Tables :=
  { t with elements := t.elements.map fun e ↦
      if e.id = id then
        { e with
          parentId := c.parentId
          status := c.status
          priority := c.priority
          assetTag := c.assetTag }
      else e }

def insertElement (e : ElementRow) : Tables := { t with elements := t.elements ++ [e] }

def deleteExt (id : Nat) (readOnly : Bool) : Tables :=
  { t with ext := Function.update t.ext id ((t.ext id).filter (·.readOnly ≠ readOnly)) }

def insertExt (id : Nat) (attrs : List (String × String)) (readOnly : Bool) : Tables :=
  { t with ext := Function.update t.ext id (attrs.foldl (upsert readOnly) (t.ext id)) }

def deleteGroups (id : Nat) : Tables := { t with groups := Function.update t.groups id [] }

def insertGroups (groups : List Nat) (id : Nat) : Tables :=
  { t with groups := Function.update t.groups id (t.groups id ++ groups) }

def deleteLinks (id : Nat) : Tables := { t with links := Function.update t.links id [] }

def insertLinks (links : List Link) : Tables :=
  { t with links := fun id ↦ t.links id ++ links.filter (·.dest = id) }

/-- The licensing sets statuses. -/
def setStatus (status : Nat → String → String) : Tables :=
  { t with elements := t.elements.map fun e ↦ { e with status := status e.id e.status } }

/-- What the two update functions have alike: the row of the element, and its read-write
attributes. -/
def rewriteElement (id : Nat) (a : AssetWrite) : Tables :=
  ((t.updateElement id (a.columns a.elementName)).deleteExt id false).insertExt id a.extattributes
    false

/-- What `update_dc_room_row_rack_group` asks for. -/
def updateDcRoomRowRackGroup (id : Nat) (a : AssetWrite) : Tables :=
  let t := t.rewriteElement id a
  let t := if a.extattributesRO.isSome then t.insertExt id a.extattributes false else t
  (t.deleteGroups id).insertGroups a.groups id

/-- What `update_device` asks for. -/
def updateDevice (id : Nat) (a : AssetWrite) : Tables :=
  let t := t.rewriteElement id a
  let t :=
    match a.extattributesRO with
    | none => t
    | some attrs => t.insertExt id attrs true
  (((t.deleteGroups id).insertGroups a.groups id).deleteLinks id).insertLinks
    (a.links.map fun link ↦ { link with dest := id })

/-- The statuses that the licensing sets are written over at the element itself. -/
theorem updateElement_setStatus (status : Nat → String → String) (id : Nat) (c : ElementColumns) :
    (t.setStatus status).updateElement id c =
      (t.updateElement id c).setStatus fun i old ↦ if i = id then old else status i old := by
  simp only [updateElement, setStatus, List.map_map]
  congr 1
  apply List.map_congr_left
  intro e _
  simp only [Function.comp_apply]
  by_cases hid : e.id = id
  · simp [hid]
  · simp [hid]

theorem updateDevice_setStatus (status : Nat → String → String) (id : Nat) (a : AssetWrite) :
    (t.setStatus status).updateDevice id a =
      (t.updateDevice id a).setStatus fun i old ↦ if i = id then old else status i old := by
  unfold updateDevice rewriteElement
  rw [updateElement_setStatus]
  cases a.extattributesRO with
  | none => rfl
  | some attrs => rfl

/-- An update leaves the attributes of the other elements. -/
theorem updateDevice_ext_of_ne {id id' : Nat} (a : AssetWrite) (h : id' ≠ id) :
    (t.updateDevice id a).ext id' = t.ext id' := by
  have hrewrite : (t.rewriteElement id a).ext id' = t.ext id' :=
    (Function.update_of_ne h _ _).trans (Function.update_of_ne h _ _)
  unfold updateDevice
  cases a.extattributesRO with
  | none => exact hrewrite
  | some attrs => exact (Function.update_of_ne h _ _).trans hrewrite

end Tables

/-- What is known of the library and of the licensing.  A write that is answered with success has
written what it was given; nothing is said of one that fails. -/
structure TablesLaws {σ : Type} (db : AssetsDb σ) (act : AssetActivator σ) (tables : σ → Tables) :
    Prop where
  -- reads
  select : ∀ s id element, db.selectAssetElementWebById s id = .ok element →
    ∃ e ∈ (tables s).elements, e.id = id ∧ e.typeId = element.typeId
  rowByName : ∀ s name id, db.rowByName s name = .ok (some id) →
    ∃ e ∈ (tables s).elements, e.id = id ∧ e.name = name
  rowByExtname : ∀ s extname id, db.rowByExtname s extname = .ok (some id) →
    (∃ e ∈ (tables s).elements, e.id = id) ∧ (db.extnameToAssetName s extname).1 = 0
  extname : ∀ s extname, (db.extnameToAssetName s extname).1 = 0 →
    ∃ e ∈ (tables s).elements, e.name = (db.extnameToAssetName s extname).2
  -- writes
  updateElement : ∀ s id c, (db.updateAssetElement s id c).2.1 = 0 →
    tables (db.updateAssetElement s id c).1 = (tables s).updateElement id c
  updateFails : ∀ s id c, (db.updateAssetElement s id c).2.1 ≠ 0 →
    (db.updateAssetElement s id c).2.2 ≠ 1
  insertElement : ∀ s c typeId subtypeId,
    (db.insertIntoAssetElement s c typeId subtypeId).2.status ≠ 0 →
    ∃ e : ElementRow, e.id = (db.insertIntoAssetElement s c typeId subtypeId).2.rowid ∧
      e.typeId = typeId ∧ e.id ≠ 0 ∧ e.name ≠ "" ∧
      (∀ e' ∈ (tables s).elements, e'.id ≠ e.id ∧ e'.name ≠ e.name) ∧
      tables (db.insertIntoAssetElement s c typeId subtypeId).1 = (tables s).insertElement e
  deleteExt : ∀ s id readOnly, (db.deleteAssetExtAttributesWithRo s id readOnly).2.status ≠ 0 →
    tables (db.deleteAssetExtAttributesWithRo s id readOnly).1 = (tables s).deleteExt id readOnly
  insertExt : ∀ s id attrs readOnly errmsg,
    (db.insertIntoAssetExtAttributes s id attrs readOnly errmsg).2.1.status ≠ 0 →
    tables (db.insertIntoAssetExtAttributes s id attrs readOnly errmsg).1 =
      (tables s).insertExt id attrs readOnly
  deleteGroups : ∀ s id, (db.deleteAssetElementFromAssetGroups s id).2.status ≠ 0 →
    tables (db.deleteAssetElementFromAssetGroups s id).1 = (tables s).deleteGroups id
  insertGroups : ∀ s groups id,
    (db.insertElementIntoGroups s groups id).2.affectedRows = groups.length →
    tables (db.insertElementIntoGroups s groups id).1 = (tables s).insertGroups groups id
  groupsReply : ∀ s groups id, (db.insertElementIntoGroups s groups id).2.status ≠ 0 →
    (db.insertElementIntoGroups s groups id).2.affectedRows = groups.length
  deleteLinks : ∀ s id, (db.deleteAssetLinksTo s id).2.status ≠ 0 →
    tables (db.deleteAssetLinksTo s id).1 = (tables s).deleteLinks id
  insertLinks : ∀ s links, (db.insertIntoAssetLinks s links).2.affectedRows = links.length →
    tables (db.insertIntoAssetLinks s links).1 = (tables s).insertLinks links
  insertMonitor : ∀ s typeId name, tables (db.insertIntoMonitorDevice s typeId name).1 = tables s
  insertRelation : ∀ s monitorId id,
    tables (db.insertIntoMonitorAssetRelation s monitorId id).1 = tables s
  activate : ∀ w assetJson, ∃ status,
    tables (act.activate w assetJson).1.store = (tables w.store).setStatus status
  deactivate : ∀ w assetJson, ∃ status,
    tables (act.deactivate w assetJson).1.store = (tables w.store).setStatus status

/-- An answer with success, or the right number of rows: the element is in all of the groups. -/
theorem TablesLaws.allGroups {σ : Type} {db : AssetsDb σ} {act : AssetActivator σ}
    {tables : σ → Tables} (hdb : TablesLaws db act tables) {s : σ} {groups : List Nat} {id : Nat}
    (h : ¬ ((db.insertElementIntoGroups s groups id).2.status = 0 ∧
      (db.insertElementIntoGroups s groups id).2.affectedRows ≠ groups.length)) :
    (db.insertElementIntoGroups s groups id).2.affectedRows = groups.length := by
  by_contra hne
  exact hne (hdb.groupsReply s groups id fun hzero ↦ h ⟨hzero, hne⟩)

/-! ## The functions of `asset_general.cc` -/

section

variable {σ : Type} {db : AssetsDb σ} {act : AssetActivator σ} {tables : σ → Tables}
  {tools : Tools} {s s' : σ} {a : AssetWrite} {elementId : Nat}

/-- The tables behind an update: the row is written and its read-write attributes are replaced. -/
theorem updateElement_tables (hdb : TablesLaws db act tables) {errmsg : String}
    (h : updateElement db tools s elementId a = .ok (s', errmsg)) :
    tables s' = (tables s).rewriteElement elementId a := by
  simp only [updateElement, bind_eq_ok, pure_eq_ok, require_eq_ok, Prod.mk.injEq] at h
  obtain ⟨-, hret1, -, hret2, -, hret3, rfl, -⟩ := h
  have hzero : (db.updateAssetElement s elementId (a.columns a.elementName)).2.1 = 0 := by
    by_contra hne
    exact hret1 ⟨hne, hdb.updateFails s elementId _ hne⟩
  rw [hdb.insertExt _ _ _ _ _ hret3, hdb.deleteExt _ _ _ hret2, hdb.updateElement _ _ _ hzero]
  rfl

/-- The read-only attributes are added to the tables when there are any. -/
theorem updateElementRO_tables (hdb : TablesLaws db act tables)
    {ro : Option (List (String × String))} {readOnly : Bool} {errmsg errmsg' : String}
    (h : updateElementRO db tools s elementId ro readOnly errmsg = .ok (s', errmsg')) :
    (ro = none ∧ tables s' = tables s) ∨
      ∃ attrs, ro = some attrs ∧ tables s' = (tables s).insertExt elementId attrs readOnly := by
  cases ro with
  | none =>
    simp only [updateElementRO, pure_eq_ok, Prod.mk.injEq] at h
    exact Or.inl ⟨rfl, by rw [h.1]⟩
  | some attrs =>
    simp only [updateElementRO, bind_eq_ok, pure_eq_ok, require_eq_ok, Prod.mk.injEq] at h
    obtain ⟨-, hret31, rfl, -⟩ := h
    exact Or.inr ⟨attrs, rfl, hdb.insertExt _ _ _ _ _ hret31⟩

theorem insertMonitor_tables (hdb : TablesLaws db act tables) {deviceTypeId : Nat} {name : String}
    (h : insertMonitor db tools s deviceTypeId name elementId = .ok s') :
    tables s' = tables s := by
  simp only [insertMonitor, bind_eq_ok, pure_eq_ok] at h
  obtain ⟨-, -, -, -, rfl⟩ := h
  rw [hdb.insertRelation, hdb.insertMonitor]

end

/-! ## Attributes that are replaced -/

section

variable {readOnly : Bool} {rows : List ExtRow} {attrs : List (String × String)}

theorem keytags_upsert (attr : String × String) :
    (upsert readOnly rows attr).map ExtRow.keytag =
      if attr.1 ∈ rows.map ExtRow.keytag then rows.map ExtRow.keytag
      else rows.map ExtRow.keytag ++ [attr.1] := by
  unfold upsert
  have hany : rows.any (·.keytag = attr.1) = true ↔ attr.1 ∈ rows.map ExtRow.keytag := by
    simp [List.any_eq_true, List.mem_map]
  by_cases h : attr.1 ∈ rows.map ExtRow.keytag
  · rw [if_pos (hany.mpr h), if_pos h, List.map_map]
    apply List.map_congr_left
    intro row _
    show ExtRow.keytag (if row.keytag = attr.1 then _ else row) = row.keytag
    by_cases hk : row.keytag = attr.1
    · rw [if_pos hk, hk]
    · rw [if_neg hk]
  · rw [if_neg fun h' ↦ h (hany.mp h'), if_neg h, List.map_append]
    rfl

theorem mem_upsert {attr : String × String} {row : ExtRow}
    (h : row ∈ upsert readOnly rows attr) : row ∈ rows ∨ row = ⟨attr.1, attr.2, readOnly⟩ := by
  unfold upsert at h
  split at h
  · obtain ⟨old, hold, rfl⟩ := List.mem_map.mp h
    split
    · exact Or.inr rfl
    · exact Or.inl hold
  · simpa using h

theorem mem_foldl_upsert {row : ExtRow} (h : row ∈ attrs.foldl (upsert readOnly) rows) :
    row ∈ rows ∨ (row.keytag, row.value) ∈ attrs ∧ row.readOnly = readOnly := by
  induction attrs generalizing rows with
  | nil => exact Or.inl h
  | cons attr attrs ih =>
    rcases ih h with hrow | ⟨hmem, hro⟩
    · rcases mem_upsert hrow with hold | rfl
      · exact Or.inl hold
      · exact Or.inr ⟨List.mem_cons_self, rfl⟩
    · exact Or.inr ⟨List.mem_cons_of_mem attr hmem, hro⟩

theorem foldl_upsert_nodup (h : (rows.map ExtRow.keytag).Nodup) :
    ((attrs.foldl (upsert readOnly) rows).map ExtRow.keytag).Nodup := by
  induction attrs generalizing rows with
  | nil => exact h
  | cons attr attrs ih =>
    apply ih
    rw [keytags_upsert]
    split
    · exact h
    · rename_i hnew
      apply List.nodup_append.mpr
      refine ⟨h, List.nodup_singleton _, ?_⟩
      rintro k hk _ hk' rfl
      exact hnew (List.mem_singleton.mp hk' ▸ hk)

/-- No keytag is lost, and those of the attributes are there. -/
theorem mem_keytags_foldl_upsert {k : String} :
    k ∈ (attrs.foldl (upsert readOnly) rows).map ExtRow.keytag ↔
      k ∈ rows.map ExtRow.keytag ∨ k ∈ attrs.map Prod.fst := by
  induction attrs generalizing rows with
  | nil => simp
  | cons attr attrs ih =>
    rw [List.foldl_cons, ih, keytags_upsert, List.map_cons, List.mem_cons]
    split
    · constructor
      · rintro (h | h)
        · exact Or.inl h
        · exact Or.inr (Or.inr h)
      · rintro (h | rfl | h)
        · exact Or.inl h
        · exact Or.inl ‹_›
        · exact Or.inr h
    · rw [List.mem_append, List.mem_singleton, or_assoc]

end

end FtyRest.Db
