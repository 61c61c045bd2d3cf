import FtyRest.Db.TablesAssets

/-!
# What a failed row leaves behind

`process_row` deactivates a device, writes the store in a transaction, activates the device and
looks its name up, and it may throw after each of these steps.
-/

namespace FtyRest.Db

open Checks

variable {σ : Type} {db : AssetsDb σ} {tools : Tools} {act : AssetActivator σ} {i : RowInput}
  {w : World σ} {plan : RowPlan}

namespace RowPlan

/-- The plan updates a device other than `rackcontroller-0`. -/
def OtherDevice (plan : RowPlan) : Prop :=
  plan.type = "device" ∧ plan.idStr ≠ "rackcontroller-0"

instance (plan : RowPlan) : Decidable plan.OtherDevice := inferInstanceAs (Decidable (_ ∧ _))

/-- The plan asks for a new device that is to be activated. -/
def ActivatesNew (plan : RowPlan) : Prop :=
  plan.type = "device" ∧ plan.subtypeId ≠ plan.rackControllerId ∧ plan.status = "active"

instance (plan : RowPlan) : Decidable plan.ActivatesNew := inferInstanceAs (Decidable (_ ∧ _ ∧ _))

/-- The tables that an update asks for. -/
def asked (plan : RowPlan) (i : RowInput) (t : Tables) : Tables :=
  let a := plan.write plan.iname (updateRO i.cm)
  if plan.type ≠ "device" then t.updateDcRoomRowRackGroup (uint32 plan.id) a
  else if plan.idStr ≠ "rackcontroller-0" then
    t.updateDevice (uint32 plan.id) { a with status := "nonactive" }
  else t.updateDevice (uint32 plan.id) a

end RowPlan

/-! ## The steps of the writing part -/

/-- The transaction of the insertion that the plan asks for. -/
def storeInsert (db : AssetsDb σ) (tools : Tools) (i : RowInput) (plan : RowPlan) (s : σ) :
    Except DbReply (σ × DbReply) :=
  let a := plan.write plan.ename (insertRO i.cm)
  if plan.type ≠ "device" then insertDcRoomRowRackGroupBody db tools s a
  else if plan.subtypeId ≠ plan.rackControllerId then
    insertDeviceBody db tools s { a with status := nonactiveFirst plan.status }
  else insertDeviceBody db tools s a

theorem insertRow_eq (plan : RowPlan) : insertRow db tools act i w plan =
    let (store, ret) := inserted w.store (storeInsert db tools i plan w.store)
    let w := { w with store }
    match insertedId ret with
    | .error e => (w, .error e)
    | .ok id =>
        let (w, warningMessages) :=
          if plan.ActivatesNew then activateAsset db act w plan.idStr id else (w, "")
        let status :=
          if plan.type = "device" ∧ plan.subtypeId ≠ plan.rackControllerId then
            nonactiveFirst plan.status
          else plan.status
        (w, .ok { id, status, warningMessages }) := by
  unfold insertRow
  by_cases htype : plan.type ≠ "device"
  · have hnew : ¬ plan.ActivatesNew := fun h ↦ htype h.1
    have hdevice : ¬ (plan.type = "device" ∧ plan.subtypeId ≠ plan.rackControllerId) :=
      fun h ↦ htype h.1
    have hstore : inserted w.store (storeInsert db tools i plan w.store) =
        insertDcRoomRowRackGroup db tools w.store (plan.write plan.ename (insertRO i.cm)) :=
      congrArg (inserted w.store) (if_pos htype)
    simp only [if_pos htype, ← hstore, if_neg hnew, if_neg hdevice]
    cases insertedId (inserted w.store (storeInsert db tools i plan w.store)).2 <;> rfl
  · by_cases hsub : plan.subtypeId ≠ plan.rackControllerId
    · have hdevice : plan.type = "device" ∧ plan.subtypeId ≠ plan.rackControllerId :=
        ⟨not_not.mp htype, hsub⟩
      have hnew : plan.ActivatesNew ↔ plan.status = "active" :=
        ⟨fun h ↦ h.2.2, fun h ↦ ⟨hdevice.1, hsub, h⟩⟩
      have hstore : inserted w.store (storeInsert db tools i plan w.store) =
          insertDevice db tools w.store
            { plan.write plan.ename (insertRO i.cm) with
              status := nonactiveFirst plan.status } :=
        congrArg (inserted w.store) ((if_neg htype).trans (if_pos hsub))
      simp only [if_neg htype, if_pos hsub, if_pos hdevice, hnew]
      unfold insertOtherDevice
      dsimp only
      rw [← hstore]
      cases insertedId (inserted w.store (storeInsert db tools i plan w.store)).2 with
      | error e => rfl
      | ok id =>
        dsimp only
        by_cases hactive : plan.status = "active"
        · simp only [if_pos hactive]
        · simp only [if_neg hactive]
    · have hnew : ¬ plan.ActivatesNew := fun h ↦ hsub h.2.1
      have hdevice : ¬ (plan.type = "device" ∧ plan.subtypeId ≠ plan.rackControllerId) :=
        fun h ↦ hsub h.2
      have hstore : inserted w.store (storeInsert db tools i plan w.store) =
          insertDevice db tools w.store (plan.write plan.ename (insertRO i.cm)) :=
        congrArg (inserted w.store) ((if_neg htype).trans (if_neg hsub))
      simp only [if_neg htype, if_neg hsub, ← hstore, if_neg hnew, if_neg hdevice]
      cases insertedId (inserted w.store (storeInsert db tools i plan w.store)).2 <;> rfl

/-! ## The points of failure behind a change -/

/-- The device is active, and its deactivation is asked for and answered. -/
def Deactivation (db : AssetsDb σ) (act : AssetActivator σ) (w : World σ) (plan : RowPlan)
    (w' : World σ) (answer : Except String Unit) : Prop :=
  plan.idStr ≠ "" ∧ plan.OtherDevice ∧ db.getStatusFromDbHelper w.store plan.idStr = "active" ∧
    ∃ assetJson, db.getJsonAsset w.store (uint32 plan.id) = .ok assetJson ∧
      act.deactivate w assetJson = (w', answer)

/-- The world in which the store is updated. -/
def UpdateStarts (db : AssetsDb σ) (act : AssetActivator σ) (w : World σ) (plan : RowPlan)
    (w' : World σ) : Prop :=
  plan.idStr ≠ "" ∧
    if plan.OtherDevice ∧ db.getStatusFromDbHelper w.store plan.idStr = "active" then
      Deactivation db act w plan w' (.ok ())
    else w' = w

/-- The insertion is rolled back and no activation follows, whatever its reply tells. -/
def NothingInserted (db : AssetsDb σ) (tools : Tools) (i : RowInput) (w : World σ)
    (plan : RowPlan) : Prop :=
  plan.idStr = "" ∧ ¬ plan.ActivatesNew ∧
    ∃ reply, storeInsert db tools i plan w.store = .error reply

variable {w₁ : World σ}

theorem Deactivation.starts (h : Deactivation db act w plan w₁ (.ok ())) :
    UpdateStarts db act w plan w₁ :=
  ⟨h.1, by
    rw [if_pos ⟨h.2.1, h.2.2.1⟩]
    exact h⟩

theorem updated_error_iff {ret : UpdateResult} :
    (∃ e, updated ret = .error e) ↔ ret.1 ≠ 0 ∨ ret.2 ≠ "" := by
  simp only [updated, require_eq_error, not_not, exists_and_left, exists_eq', and_true]

theorem insertedId_error_iff {ret : DbReply} :
    (∃ e, insertedId ret = .error e) ↔ ret.status ≠ 1 := by
  unfold insertedId
  split
  · simp_all
  · simp_all

/-- What counts as written although nothing is inserted leaves no trace. -/
theorem NothingInserted.writeRow {written : Written} (h : NothingInserted db tools i w plan)
    (hrow : writeRow db tools act i w plan = (w₁, .ok written)) : w₁ = w := by
  obtain ⟨hid, hnew, reply, hstore⟩ := h
  unfold FtyRest.Db.writeRow at hrow
  rw [if_neg (not_not_intro hid), insertRow_eq, hstore] at hrow
  dsimp only [inserted] at hrow
  cases hinserted : insertedId reply with
  | error e =>
    rw [hinserted] at hrow
    cases (Prod.mk.inj hrow).2
  | ok id =>
    rw [hinserted] at hrow
    dsimp only at hrow
    rw [if_neg hnew] at hrow
    exact (Prod.mk.inj hrow).1.symm

/-! ## What a failed row leaves -/

variable {tables : σ → Tables}

/-- The statuses that the licensing sets before a device is updated. -/
theorem asked_setStatus (hother : plan.OtherDevice) (t : Tables) (status : Nat → String → String) :
    ∃ status', plan.asked i (t.setStatus status) = (plan.asked i t).setStatus status' := by
  have hasked (t : Tables) : plan.asked i t = t.updateDevice (uint32 plan.id)
      { plan.write plan.iname (updateRO i.cm) with status := "nonactive" } :=
    (if_neg (not_not_intro hother.1)).trans (if_pos hother.2)
  rw [hasked, hasked]
  exact ⟨_, t.updateDevice_setStatus status _ _⟩

theorem setStatus_self (t : Tables) : t.setStatus (fun _ old ↦ old) = t := by
  unfold Tables.setStatus
  rw [List.map_id']

theorem UpdateStarts.asked (hdb : TablesLaws db act tables)
    (h : UpdateStarts db act w plan w₁) : ∃ status,
      plan.asked i (tables w₁.store) = (plan.asked i (tables w.store)).setStatus status := by
  have hstarts := h.2
  split at hstarts
  · obtain ⟨-, hother, -, assetJson, -, hdone⟩ := hstarts
    obtain ⟨status, hstatus⟩ := hdb.deactivate w assetJson
    rw [hdone] at hstatus
    rw [show tables w₁.store = _ from hstatus]
    exact asked_setStatus hother _ status
  · rw [hstarts]
    exact ⟨fun _ old ↦ old, (setStatus_self _).symm⟩

/-- A database with one device, `ups-7`, whose status is all that is stored.  The removal of its
old power sources is answered with `links`. -/
def oneUps (links : DbReply) : AssetsDb String where
  nameToAssetId _ name := if name = "ups-7" then 7 else -1
  extnameToAssetId _ extname := if extname = "UPS" then 7 else -1
  extnameToAssetName _ extname := if extname = "UPS" then (0, "ups-7") else (-1, "")
  isOkName _ := true
  rowByName _ name := .ok (if name = "ups-7" then some 7 else none)
  rowByExtname _ extname := .ok (if extname = "UPS" then some 7 else none)
  selectAssetElementWebById _ id :=
    if id = 7 then .ok ⟨AssetType.device, 1, "ups"⟩ else .error .notFound
  getStatusFromDbHelper status _ := status
  selectMonitorDeviceTypeId _ _ := .error { status := 0, errsubtype := .notFound }
  getJsonAsset _ id := if id = 7 then .ok "an asset" else .error "no asset"
  typeidToType _ := "device"
  subtypeidToSubtype _ := "ups"
  updateAssetElement _ _ c := (c.status, 0, 1)
  insertIntoAssetElement status _ _ _ := (status, { status := 0 })
  deleteAssetExtAttributesWithRo status _ _ := (status, {})
  insertIntoAssetExtAttributes status _ _ _ errmsg := (status, {}, errmsg)
  deleteAssetElementFromAssetGroups status _ := (status, {})
  insertElementIntoGroups status groups _ := (status, { affectedRows := groups.length })
  deleteAssetLinksTo status _ := (status, links)
  insertIntoAssetLinks status links := (status, { affectedRows := links.length })
  insertIntoMonitorDevice status _ _ := (status, {})
  insertIntoMonitorAssetRelation status _ _ := (status, {})

def upsActivator : AssetActivator String where
  activate _ _ := (⟨"active", fun id ↦ id = 7⟩, .ok ())
  deactivate _ _ := (⟨"nonactive", fun _ ↦ false⟩, .ok ())

def plainTools : Tools where
  behindEnd := 0
  behindText := '\x00'
  jsonify := id
  sanitizeDate := some
  stod _ := none

/-- A row that updates `ups-7`. -/
def upsRow (status : String) : RowInput where
  cm := {
    data := [["id", "name", "type", "sub_type", "location", "status", "priority"],
      ["ups-7", "UPS", "device", "ups", "", status, "P1"]]
    titleToIndex := ["id", "name", "type", "sub_type", "location", "status", "priority"].zipIdx }
  row := 1
  types := [("device", AssetType.device)]
  subtypes := [("patch panel", 3), ("rack controller", 2), ("ups", 1)]
  ids := []
  sanitize := true
  rc0 := 2 ^ 64 - 1
  limitations := { globalConfigurability := 1 }

def activeUps : World String := ⟨"active", fun id ↦ id = 7⟩

/-! ## An active device in tables -/

def assetJson (id : Nat) : String := "\x7b\"id\" : " ++ toString id ++ "\x7d"

/-- The status of the asset that a JSON names, in the tables and in the licensing. -/
def licensed (w : World Tables) (json status : String) : World Tables where
  store := w.store.setStatus fun id old ↦ if assetJson (uint32 id) = json then status else old
  activation id := if assetJson id = json then status = "active" else w.activation id

end FtyRest.Db
