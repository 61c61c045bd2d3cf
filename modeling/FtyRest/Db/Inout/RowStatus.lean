import FtyRest.Db.Inout.RowTrace

/-!
# The status of an imported device

A device is written as `nonactive` before it is activated, and the result carries a status as
well.  Here is which of the two keep the status that the row asks for.
-/

namespace FtyRest.Db

open Checks

variable {σ : Type} {db : AssetsDb σ} {tools : Tools} {act : AssetActivator σ} {i : RowInput}
  {status : σ → Nat → Option String} {w w' : World σ} {plan : RowPlan} {written : Written}

/-- What is known of the licensing: when it succeeds, it sets the stored status. -/
structure ActivationLaws (db : AssetsDb σ) (act : AssetActivator σ)
    (status : σ → Nat → Option String) : Prop where
  activate : ∀ w id assetJson w', db.getJsonAsset w.store id = .ok assetJson →
    act.activate w assetJson = (w', .ok ()) → status w'.store id = some "active"
  deactivate : ∀ w id assetJson w', db.getJsonAsset w.store id = .ok assetJson →
    act.deactivate w assetJson = (w', .ok ()) → status w'.store id = some "nonactive"

theorem updated_ok_iff {ret : UpdateResult} : updated ret = .ok () ↔ ret = (0, "") := by
  simp only [updated, require_eq_ok, not_or, not_not, Prod.ext_iff]

theorem insertedId_ok_iff {ret : DbReply} {id : Nat} :
    insertedId ret = .ok id ↔ ret.status = 1 ∧ ret.rowid = id := by
  unfold insertedId
  split <;> simp_all

theorem licensingWarning_ne (idStr what : String) : licensingWarning idStr what ≠ "" := by
  intro h
  have := congrArg String.length h
  simp [licensingWarning, String.length_append] at this

/-- An activation without a warning has happened. -/
theorem activateAsset_status (hact : ActivationLaws db act status) {idStr : String} {id : Nat}
    (h : activateAsset db act w idStr id = (w', "")) : status w'.store id = some "active" := by
  unfold activateAsset at h
  -- whatever fails leaves a warning, so nothing has
  cases hjson : db.getJsonAsset w.store id with
  | error what =>
    rw [hjson] at h
    exact absurd (Prod.mk.inj h).2 (licensingWarning_ne idStr what)
  | ok assetJson =>
    rw [hjson] at h
    dsimp only at h
    rcases hdone : act.activate w assetJson with ⟨w₁, what | u⟩
    · rw [hdone] at h
      exact absurd (Prod.mk.inj h).2 (licensingWarning_ne idStr what)
    · rw [hdone] at h
      obtain ⟨rfl, -⟩ := Prod.mk.inj h
      exact hact.activate w id assetJson w₁ hjson hdone

/-- An asset is still there after its deactivation. -/
theorem deactivateAsset_there (hact : ActivationLaws db act status)
    (hthere : (status w.store (uint32 plan.id)).isSome)
    (h : deactivateAsset db tools act w plan = (w', .ok ())) :
    (status w'.store (uint32 plan.id)).isSome := by
  unfold deactivateAsset at h
  split at h
  · cases hjson : db.getJsonAsset w.store (uint32 plan.id) with
    | error what =>
      rw [hjson] at h
      simp at h
    | ok assetJson =>
      rw [hjson] at h
      dsimp only at h
      rcases hdone : act.deactivate w assetJson with ⟨w₁, what | u⟩
      · rw [hdone] at h
        simp at h
      · rw [hdone] at h
        obtain ⟨rfl, -⟩ := Prod.mk.inj h
        rw [hact.deactivate w (uint32 plan.id) assetJson w₁ hjson hdone]
        rfl
  · obtain ⟨rfl, -⟩ := Prod.mk.inj h
    exact hthere

/-- The status that is stored for a device. -/
def storedStatus (plan : RowPlan) : String :=
  if plan.idStr = "" ∨ plan.idStr = "rackcontroller-0" ∨ plan.status = "active" then plan.status
  else "nonactive"

/-- The status that is returned for a device. -/
def returnedStatus (plan : RowPlan) : String :=
  if plan.idStr = "rackcontroller-0" ∨ plan.idStr = "" ∧ plan.subtypeId = plan.rackControllerId then
    plan.status
  else nonactiveFirst plan.status

theorem updateOtherDevice_status (hdb : StatusColumn db status)
    (hact : ActivationLaws db act status) (hthere : (status w.store (uint32 plan.id)).isSome)
    (h : updateOtherDevice db tools act i w plan = (w', .ok written))
    (hwarning : written.warningMessages = "") :
    status w'.store written.id =
        some (if plan.status = "active" then "active" else "nonactive") ∧
      written.status = nonactiveFirst plan.status := by
  unfold updateOtherDevice at h
  rcases hdeact : deactivateAsset db tools act w plan with ⟨w₁, e | ⟨⟩⟩
  · rw [hdeact] at h
    simp at h
  · rw [hdeact] at h
    have hthere₁ := deactivateAsset_there hact hthere hdeact
    rcases hupdate : updateDevice db tools w₁.store (uint32 plan.id)
      { plan.write plan.iname (updateRO i.cm) with status := "nonactive" } with ⟨store, ret⟩
    simp only [hupdate] at h
    cases hret : updated ret with
    | error e =>
      rw [hret] at h
      simp at h
    | ok u =>
      rw [hret] at h
      obtain rfl := updated_ok_iff.mp hret
      dsimp only at h
      by_cases hactive : plan.status = "active"
      · -- the activation has the last word
        rw [if_pos hactive] at h ⊢
        rcases hdone : activateAsset db act { w₁ with store } plan.idStr (uint32 plan.id) with
          ⟨w₂, warning⟩
        rw [hdone] at h
        obtain ⟨rfl, hwritten⟩ := Prod.mk.inj h
        obtain rfl := Except.ok.inj hwritten
        obtain rfl : warning = "" := hwarning
        exact ⟨activateAsset_status hact hdone, rfl⟩
      · rw [if_neg hactive] at h ⊢
        obtain ⟨rfl, hwritten⟩ := Prod.mk.inj h
        obtain rfl := Except.ok.inj hwritten
        exact ⟨updateDevice_status hdb hthere₁ hupdate, rfl⟩

theorem insertOtherDevice_status (hdb : StatusColumn db status) (hreplies : InsertReplies db)
    (hact : ActivationLaws db act status)
    (h : insertOtherDevice db tools act i w plan = (w', .ok written))
    (hwarning : written.warningMessages = "") :
    status w'.store written.id = some plan.status ∧
      written.status = nonactiveFirst plan.status := by
  unfold insertOtherDevice at h
  rcases hinsert : insertDevice db tools w.store
    { plan.write plan.ename (insertRO i.cm) with status := nonactiveFirst plan.status } with
    ⟨store, ret⟩
  simp only [hinsert] at h
  cases hret : insertedId ret with
  | error e =>
    rw [hret] at h
    simp at h
  | ok id =>
    rw [hret] at h
    obtain ⟨hok, rfl⟩ := insertedId_ok_iff.mp hret
    have hstored := insertDeviceBody_stored hdb (insertDevice_ok hreplies hinsert hok)
    dsimp only at h
    -- an active device is written as nonactive first, and activated behind the commit
    by_cases hactive : plan.status = "active"
    · rw [if_pos hactive] at h
      rcases hdone : activateAsset db act { w with store } plan.idStr ret.rowid with ⟨w₂, warning⟩
      rw [hdone] at h
      obtain ⟨rfl, hwritten⟩ := Prod.mk.inj h
      obtain rfl := Except.ok.inj hwritten
      obtain rfl : warning = "" := hwarning
      rw [hactive]
      exact ⟨activateAsset_status hact hdone, rfl⟩
    · rw [if_neg hactive] at h
      obtain ⟨rfl, hwritten⟩ := Prod.mk.inj h
      obtain rfl := Except.ok.inj hwritten
      have hsame : nonactiveFirst plan.status = plan.status := if_neg hactive
      exact ⟨hstored.trans (congrArg some hsame), rfl⟩

/-- What the writing part of a device row stores and returns. -/
theorem writeRow_status (hdb : StatusColumn db status) (hreplies : InsertReplies db)
    (hact : ActivationLaws db act status) (hdevice : plan.type = "device")
    (hthere : plan.idStr ≠ "" → (status w.store (uint32 plan.id)).isSome)
    (h : writeRow db tools act i w plan = (w', .ok written))
    (hwarning : written.warningMessages = "") :
    status w'.store written.id = some (storedStatus plan) ∧
      written.status = returnedStatus plan := by
  unfold writeRow at h
  unfold storedStatus returnedStatus
  -- an insertion is told from an update by the id, and then by who is left out of the licensing
  by_cases hid : plan.idStr = ""
  · rw [if_neg (not_not_intro hid), insertRow, if_neg (not_not_intro hdevice)] at h
    have hrc : plan.idStr ≠ "rackcontroller-0" := by
      rw [hid]
      decide
    by_cases hsub : plan.subtypeId = plan.rackControllerId
    · -- a rack controller is inserted without the licensing
      rw [if_neg (not_not_intro hsub)] at h
      rcases hinsert : insertDevice db tools w.store (plan.write plan.ename (insertRO i.cm)) with
        ⟨store, ret⟩
      simp only [hinsert, Prod.mk.injEq, map_eq_ok, insertedId_ok_iff] at h
      obtain ⟨rfl, -, ⟨hok, rfl⟩, rfl⟩ := h
      rw [if_pos (Or.inl hid), if_pos (Or.inr ⟨hid, hsub⟩)]
      exact ⟨insertDeviceBody_stored hdb (insertDevice_ok hreplies hinsert hok), rfl⟩
    · rw [if_pos hsub] at h
      rw [if_pos (Or.inl hid), if_neg]
      · exact insertOtherDevice_status hdb hreplies hact h hwarning
      · rintro (h' | ⟨-, h'⟩)
        · exact hrc h'
        · exact hsub h'
  · rw [if_pos hid, updateRow, if_neg (not_not_intro hdevice)] at h
    by_cases hrc : plan.idStr = "rackcontroller-0"
    · rw [if_neg (not_not_intro hrc)] at h
      rcases hupdate : updateDevice db tools w.store (uint32 plan.id)
        (plan.write plan.iname (updateRO i.cm)) with ⟨store, ret⟩
      simp only [hupdate, Prod.mk.injEq, map_eq_ok] at h
      obtain ⟨rfl, ⟨⟩, hret, rfl⟩ := h
      obtain rfl := updated_ok_iff.mp hret
      rw [if_pos (Or.inr (Or.inl hrc)), if_pos (Or.inl hrc)]
      exact ⟨updateDevice_status hdb (hthere hid) hupdate, rfl⟩
    · rw [if_pos hrc] at h
      obtain ⟨hstored, hreturned⟩ :=
        updateOtherDevice_status hdb hact (hthere hid) h hwarning
      have hnot : ¬ (plan.idStr = "rackcontroller-0" ∨
          plan.idStr = "" ∧ plan.subtypeId = plan.rackControllerId) :=
        fun h' ↦ h'.elim hrc fun h' ↦ hid h'.1
      rw [if_neg hnot]
      refine ⟨hstored.trans (congrArg some ?_), hreturned⟩
      by_cases hactive : plan.status = "active"
      · rw [if_pos hactive, if_pos (Or.inr (Or.inr hactive)), hactive]
      · rw [if_neg hactive, if_neg (by simp [hid, hrc, hactive])]

theorem ReadSteps.there {s : σ} {names : List (String × String)} (hdb : StatusColumn db status)
    (h : ReadSteps db tools s i names plan) (hid : plan.idStr ≠ "") :
    (status s (uint32 plan.id)).isSome := by
  have hrow := h.inDb
  unfold checkInDb at hrow
  rw [if_neg hid] at hrow
  cases hselect : db.selectAssetElementWebById s (uint32 plan.id) with
  | error e =>
    rw [hselect] at hrow
    split at hrow <;> simp_all
  | ok element => exact hdb.select s (uint32 plan.id) element hselect

/-- A device row that returns without a warning keeps the requested status, in the store and in
the result, exactly on these paths. -/
theorem keeps_status_iff (hdb : StatusColumn db status) (hreplies : InsertReplies db)
    (hact : ActivationLaws db act status) {result : RowResult}
    (hread : readRow db tools w.store i = .ok plan) (hdevice : plan.type = "device")
    (h : processRow db tools act i w = (w', .ok result)) (hwarning : result.warningMessages = "") :
    (status w'.store result.m.id = some plan.status ∧ result.m.status = plan.status) ↔
      (plan.idStr ≠ "" ∧ (plan.idStr = "rackcontroller-0" ∨ plan.status = "nonactive")) ∨
        (plan.idStr = "" ∧
          (plan.subtypeId = plan.rackControllerId ∨ plan.status ≠ "active")) := by
  obtain ⟨names, hsteps⟩ := readRow_steps hread
  obtain ⟨plan', written, hread', hrow, hm, hreturned, hwritten⟩ := processRow_ok h
  obtain rfl : plan = plan' := Except.ok.inj (hread.symm.trans hread')
  rw [hwritten] at hwarning
  obtain ⟨hstored, hwrittenStatus⟩ :=
    writeRow_status hdb hreplies hact hdevice (hsteps.there hdb) hrow hwarning
  rw [hm, hreturned, hstored, hwrittenStatus, Option.some.injEq]
  simp only [storedStatus, returnedStatus, nonactiveFirst]
  -- both tables of cases, the stored status and the returned one, side by side
  by_cases hid : plan.idStr = ""
  · by_cases hactive : plan.status = "active"
    · by_cases hsub : plan.subtypeId = plan.rackControllerId <;> simp [hid, hactive, hsub]
    · simp [hid, hactive]
  · by_cases hrc : plan.idStr = "rackcontroller-0"
    · simp [hrc]
    · by_cases hactive : plan.status = "active"
      · simp [hid, hrc, hactive]
      · simp [hid, hrc, hactive, eq_comm]

/-! ## A device that is retired -/

theorem oneUps_status : StatusColumn (oneUps {}) fun s id ↦ if id = 7 then some s else none where
  select s id element h := by
    by_cases hid : id = 7
    · rw [if_pos hid]
      rfl
    · simp [oneUps, hid] at h
  update s id c hthere _ := by
    by_cases hid : id = 7
    · rw [if_pos hid]
      rfl
    · simp [hid] at hthere
  updateFails _ _ _ h := absurd rfl h
  insert _ _ _ _ h := absurd rfl h
  deleteExt _ _ _ := rfl
  insertExt _ _ _ _ _ := rfl
  deleteGroups _ _ := rfl
  insertGroups _ _ _ := rfl
  deleteLinks _ _ := rfl
  insertLinks _ _ := rfl
  insertMonitor _ _ _ := rfl
  insertRelation _ _ _ := rfl

theorem oneUps_replies : InsertReplies (oneUps {}) where
  links _ _ h := absurd rfl h
  monitorType _ _ _ h := by
    obtain rfl := Except.error.inj h
    rfl

theorem oneUps_activation :
    ActivationLaws (oneUps {}) upsActivator fun s id ↦ if id = 7 then some s else none where
  activate w id assetJson w' hjson h := by
    obtain ⟨rfl, -⟩ := Prod.mk.inj h
    by_cases hid : id = 7
    · exact if_pos hid
    · simp [oneUps, hid] at hjson
  deactivate w id assetJson w' hjson h := by
    obtain ⟨rfl, -⟩ := Prod.mk.inj h
    by_cases hid : id = 7
    · exact if_pos hid
    · simp [oneUps, hid] at hjson

def nonactiveUps : World String := ⟨"nonactive", fun _ ↦ false⟩

/-- What the rows of `ups-7` ask for. -/
def upsPlan (status : String) : RowPlan where
  idStr := "ups-7"
  id := 7
  ename := "UPS"
  iname := "ups-7"
  type := "device"
  typeId := AssetType.device
  status := status
  assetTag := ""
  priority := 1
  parentId := 0
  rackControllerId := 2
  subtype := "ups"
  subtypeId := 1
  groups := []
  links := []
  ext := [("name", "UPS")]

def upsResult (status : String) : RowResult where
  m := {
    id := 7
    name := "ups-7"
    status := status
    parentId := 0
    priority := 1
    typeId := AssetType.device
    subtypeId := 1
    assetTag := ""
    ext := [("name", "UPS")] }
  operation := .update
  ids := [7]
  warningMessages := ""

theorem keeps_status_iff_nonactive :
    ((if (7 : Nat) = 7 then some "nonactive" else none) = some "nonactive" ∧
        "nonactive" = "nonactive") ↔
      ("ups-7" ≠ "" ∧ ("ups-7" = "rackcontroller-0" ∨ "nonactive" = "nonactive")) ∨
        ("ups-7" = "" ∧ (1 = 2 ∨ "nonactive" ≠ "active")) := by
  have hread : readRow (oneUps {}) plainTools nonactiveUps.store (upsRow "nonactive") =
      .ok (upsPlan "nonactive") := by decide
  have hrow : processRow (oneUps {}) plainTools upsActivator (upsRow "nonactive") nonactiveUps =
      (nonactiveUps, .ok (upsResult "nonactive")) := rfl
  exact keeps_status_iff oneUps_status oneUps_replies oneUps_activation hread rfl hrow rfl

/-- A device that is to be retired is stored as `nonactive`, and one that is activated is returned
as `nonactive`. -/
theorem status_not_kept :
    processRow (oneUps {}) plainTools upsActivator (upsRow "retired") nonactiveUps =
        (nonactiveUps, .ok (upsResult "retired")) ∧
      processRow (oneUps {}) plainTools upsActivator (upsRow "active") nonactiveUps =
        (activeUps, .ok (upsResult "nonactive")) :=
  ⟨rfl, rfl⟩

end FtyRest.Db
