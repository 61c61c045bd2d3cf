import FtyRest.Db.Inout.RowTrace

/-!
# Deleting an asset

The delete functions of `db/asset_general.cc`.  As for the writes, what the body of a transaction
throws is what is returned after the rollback.
-/

namespace FtyRest.Db

open Checks

/-- The functions of the database library that the deletions call. -/
structure DeleteDb (σ : Type) where
  -- how many datacenters there are besides an element
  numDatacentersWithout : σ → Nat → Nat
  convertAssetToMonitor : σ → Nat → Int
  deleteAssetElementFromAssetGroups : σ → Nat → σ × DbReply
  deleteAssetGroupLinks : σ → Nat → σ × DbReply
  deleteAssetLinksTo : σ → Nat → σ × DbReply
  deleteMonitorAssetRelationByA : σ → Nat → σ × DbReply
  deleteAssetElement : σ → Nat → σ × DbReply

section

variable {σ : Type} (db : DeleteDb σ) (tools : Tools)

def lastDatacenter : DbReply where
  status := 0
  errtype := .dbErr
  errsubtype := .deleteFail
  msg := "will not allow last datacenter to be deleted"

/-- The transaction of `delete_dc_room_row_rack`; `overridden` tells that the check of the last
datacenter is switched off in the environment. -/
def deleteDcRoomRowRackBody (overridden : Bool) (s : σ) (elementId : Nat) :
    Except DbReply (σ × DbReply) := do
  require (overridden = true ∨ db.numDatacentersWithout s elementId ≠ 0) lastDatacenter
  let (s, replyDelete2) := db.deleteAssetElementFromAssetGroups s elementId
  require (replyDelete2.status ≠ 0) (returned tools replyDelete2)
  -- find monitor counterpart
  let rv := db.convertAssetToMonitor s elementId
  require (rv = 0) { status := 0, errtype := .code rv, errsubtype := .code rv }
  let (s, replyDelete3) := db.deleteMonitorAssetRelationByA s elementId
  require (replyDelete3.status ≠ 0) (returned tools replyDelete3)
  let (s, replyDelete4) := db.deleteAssetElement s elementId
  require (replyDelete4.status ≠ 0) (returned tools replyDelete4)
  return (s, returned tools replyDelete4)

/-- The transaction of `delete_group`. -/
def deleteGroupBody (s : σ) (elementId : Nat) : Except DbReply (σ × DbReply) := do
  let (s, replyDelete2) := db.deleteAssetGroupLinks s elementId
  require (replyDelete2.status ≠ 0) (returned tools replyDelete2)
  let (s, replyDelete3) := db.deleteAssetElement s elementId
  require (replyDelete3.status ≠ 0) (returned tools replyDelete3)
  return (s, returned tools replyDelete3)

/-- The transaction of `delete_device`. -/
def deleteDeviceBody (s : σ) (elementId : Nat) : Except DbReply (σ × DbReply) := do
  let (s, replyDelete2) := db.deleteAssetElementFromAssetGroups s elementId
  require (replyDelete2.status ≠ 0) (returned tools replyDelete2)
  let (s, replyDelete3) := db.deleteAssetLinksTo s elementId
  require (replyDelete3.status ≠ 0) (returned tools replyDelete3)
  let (s, replyDelete5) := db.deleteMonitorAssetRelationByA s elementId
  require (replyDelete5.status ≠ 0) (returned tools replyDelete5)
  let (s, replyDelete6) := db.deleteAssetElement s elementId
  require (replyDelete6.status ≠ 0) (returned tools replyDelete6)
  return (s, returned tools replyDelete6)

/-- A deletion commits, or rolls back. -/
def deleted (s : σ) : Except DbReply (σ × DbReply) → σ × DbReply
  | .ok (s', reply) => (s', reply)
  | .error reply => (s, reply)

def deleteDcRoomRowRack (overridden : Bool) (s : σ) (elementId : Nat) : σ × DbReply :=
  deleted s (deleteDcRoomRowRackBody db tools overridden s elementId)

def deleteGroup (s : σ) (elementId : Nat) : σ × DbReply :=
  deleted s (deleteGroupBody db tools s elementId)

def notDeactivated (what : String) : DbReply where
  status := 0
  errtype := .dbErr
  errsubtype := .internal
  msg := what

/-- `delete_device`: the device is made inactive last, after the commit. -/
def deleteDevice (act : AssetActivator σ) (w : World σ) (elementId : Nat) (assetJson : String) :
    World σ × DbReply :=
  match deleteDeviceBody db tools w.store elementId with
  | .error reply => (w, reply)
  | .ok (s, reply) =>
      let w := { w with store := s }
      if assetJson ≠ "" then
        match act.deactivate w assetJson with
        | (w, .error what) => (w, notDeactivated what)
        | (w, .ok ()) => (w, reply)
      else
        (w, reply)

end

/-! ## What is left of an asset -/

/-- What the tables hold of an asset: its element, the groups that it is in, its members when it is
a group, the links to it and its monitor counterparts. -/
structure AssetParts where
  element : Bool
  groups : List Nat
  members : List Nat
  links : List Nat
  monitors : List Nat
deriving DecidableEq, Repr

namespace AssetParts

/-- Everything is still there. -/
def Kept (before after : AssetParts) : Prop :=
  (before.element = true → after.element = true) ∧ before.groups ⊆ after.groups ∧
    before.members ⊆ after.members ∧ before.links ⊆ after.links ∧
    before.monitors ⊆ after.monitors

theorem Kept.refl (parts : AssetParts) : Kept parts parts :=
  ⟨id, List.Subset.refl _, List.Subset.refl _, List.Subset.refl _, List.Subset.refl _⟩

/-- What the deletion of a device leaves. -/
def withoutDevice (parts : AssetParts) : AssetParts :=
  { parts with element := false, groups := [], links := [], monitors := [] }

/-- There is something that the deletion of a device removes. -/
def Holds (parts : AssetParts) : Prop :=
  parts.element = true ∨ parts.groups ≠ [] ∨ parts.links ≠ [] ∨ parts.monitors ≠ []

theorem kept_withoutDevice_iff {parts : AssetParts} :
    Kept parts parts.withoutDevice ↔ ¬ parts.Holds := by
  simp only [Kept, withoutDevice, Holds, List.subset_nil, List.Subset.refl, true_and, not_or,
    ne_eq, not_not, Bool.false_eq_true, imp_false]

end AssetParts

/-- A deletion that reports an error has deleted nothing of the asset, and one that reports success
has deleted its element. -/
def ErrorKeeps (before after : AssetParts) (reply : DbReply) : Prop :=
  (reply.status = 0 → before.Kept after) ∧ (reply.status ≠ 0 → after.element = false)

theorem errorKeeps_iff_of_zero {before after : AssetParts} {reply : DbReply}
    (h : reply.status = 0) : ErrorKeeps before after reply ↔ before.Kept after := by
  simp [ErrorKeeps, h]

theorem errorKeeps_iff_of_ne_zero {before after : AssetParts} {reply : DbReply}
    (h : reply.status ≠ 0) : ErrorKeeps before after reply ↔ after.element = false := by
  simp [ErrorKeeps, h]

section

variable {σ : Type}

/-- What is known of the deletions: one that is answered with success removes its part of the
asset.  A deactivation leaves the tables alone. -/
structure DeleteLaws (db : DeleteDb σ) (act : AssetActivator σ) (parts : σ → Nat → AssetParts) :
    Prop where
  groups : ∀ s id, (db.deleteAssetElementFromAssetGroups s id).2.status ≠ 0 →
    parts (db.deleteAssetElementFromAssetGroups s id).1 id = { parts s id with groups := [] }
  members : ∀ s id, (db.deleteAssetGroupLinks s id).2.status ≠ 0 →
    parts (db.deleteAssetGroupLinks s id).1 id = { parts s id with members := [] }
  links : ∀ s id, (db.deleteAssetLinksTo s id).2.status ≠ 0 →
    parts (db.deleteAssetLinksTo s id).1 id = { parts s id with links := [] }
  monitors : ∀ s id, (db.deleteMonitorAssetRelationByA s id).2.status ≠ 0 →
    parts (db.deleteMonitorAssetRelationByA s id).1 id = { parts s id with monitors := [] }
  element : ∀ s id, (db.deleteAssetElement s id).2.status ≠ 0 →
    parts (db.deleteAssetElement s id).1 id = { parts s id with element := false }
  deactivate : ∀ w json id, parts (act.deactivate w json).1.store id = parts w.store id

variable {db : DeleteDb σ} {act : AssetActivator σ} {parts : σ → Nat → AssetParts} {tools : Tools}
  {s s' : σ} {elementId : Nat} {reply : DbReply}

/-- The four deletions of a device, one after the other, are all answered with success. -/
def DeviceDeletes (db : DeleteDb σ) (s : σ) (elementId : Nat) : Prop :=
  let groups := db.deleteAssetElementFromAssetGroups s elementId
  let links := db.deleteAssetLinksTo groups.1 elementId
  let monitors := db.deleteMonitorAssetRelationByA links.1 elementId
  groups.2.status ≠ 0 ∧ links.2.status ≠ 0 ∧ monitors.2.status ≠ 0 ∧
    (db.deleteAssetElement monitors.1 elementId).2.status ≠ 0

/-- The store that they leave. -/
def deviceDeleted (db : DeleteDb σ) (s : σ) (elementId : Nat) : σ :=
  let groups := db.deleteAssetElementFromAssetGroups s elementId
  let links := db.deleteAssetLinksTo groups.1 elementId
  let monitors := db.deleteMonitorAssetRelationByA links.1 elementId
  (db.deleteAssetElement monitors.1 elementId).1

theorem deleteDeviceBody_ok (h : deleteDeviceBody db tools s elementId = .ok (s', reply)) :
    DeviceDeletes db s elementId ∧ deviceDeleted db s elementId = s' ∧ reply.status ≠ 0 := by
  simp only [deleteDeviceBody, bind_eq_ok, pure_eq_ok, require_eq_ok, exists_const,
    Prod.mk.injEq] at h
  obtain ⟨hgroups, hlinks, hmonitors, helement, hs', hreply⟩ := h
  subst hreply
  exact ⟨⟨hgroups, hlinks, hmonitors, helement⟩, hs', helement⟩

theorem deleteDeviceBody_error (h : deleteDeviceBody db tools s elementId = .error reply) :
    ¬ DeviceDeletes db s elementId ∧ reply.status = 0 := by
  simp only [deleteDeviceBody, bind_eq_error, require_eq_error, require_eq_ok, pure_ne_error,
    and_false, exists_false, or_false, exists_const, not_not] at h
  rcases h with ⟨hfail, rfl⟩ | ⟨-, ⟨hfail, rfl⟩ | ⟨-, ⟨hfail, rfl⟩ | ⟨-, hfail, rfl⟩⟩⟩
  · exact ⟨fun h ↦ h.1 hfail, hfail⟩
  · exact ⟨fun h ↦ h.2.1 hfail, hfail⟩
  · exact ⟨fun h ↦ h.2.2.1 hfail, hfail⟩
  · exact ⟨fun h ↦ h.2.2.2 hfail, hfail⟩

theorem deviceDeleted_parts (hdb : DeleteLaws db act parts) (h : DeviceDeletes db s elementId) :
    parts (deviceDeleted db s elementId) elementId = (parts s elementId).withoutDevice := by
  obtain ⟨hgroups, hlinks, hmonitors, helement⟩ := h
  rw [deviceDeleted, hdb.element _ _ helement, hdb.monitors _ _ hmonitors, hdb.links _ _ hlinks,
    hdb.groups _ _ hgroups]
  rfl

/-- A deletion that is one transaction is honest when its failures have the status `0` and its
success means that the element is gone. -/
theorem deleted_errorKeeps {body : Except DbReply (σ × DbReply)}
    (herror : ∀ reply, body = .error reply → reply.status = 0)
    (hok : ∀ s' reply, body = .ok (s', reply) →
      reply.status ≠ 0 ∧ (parts s' elementId).element = false) :
    ErrorKeeps (parts s elementId) (parts (deleted s body).1 elementId) (deleted s body).2 := by
  cases hbody : body with
  | error reply =>
    constructor
    · intro _
      exact AssetParts.Kept.refl _
    · intro hstatus
      exact absurd (herror reply hbody) hstatus
  | ok r =>
    have ⟨hstatus, hgone⟩ := hok r.1 r.2 hbody
    constructor
    · intro hzero
      exact absurd hzero hstatus
    · intro _
      exact hgone

theorem deleteDcRoomRowRack_errorKeeps (hdb : DeleteLaws db act parts) {overridden : Bool} :
    ErrorKeeps (parts s elementId)
      (parts (deleteDcRoomRowRack db tools overridden s elementId).1 elementId)
      (deleteDcRoomRowRack db tools overridden s elementId).2 := by
  apply deleted_errorKeeps
  · intro reply h
    simp only [deleteDcRoomRowRackBody, bind_eq_error, require_eq_error, require_eq_ok,
      pure_ne_error, and_false, exists_false, or_false, exists_const, not_not] at h
    rcases h with ⟨-, rfl⟩ | ⟨-, ⟨hfail, rfl⟩ | ⟨-, ⟨-, rfl⟩ | ⟨-, ⟨hfail, rfl⟩ |
      ⟨-, hfail, rfl⟩⟩⟩⟩
    · rfl
    · exact hfail
    · rfl
    · exact hfail
    · exact hfail
  · intro s' reply h
    simp only [deleteDcRoomRowRackBody, bind_eq_ok, pure_eq_ok, require_eq_ok, exists_const,
      Prod.mk.injEq] at h
    obtain ⟨-, -, -, -, helement, hs', hreply⟩ := h
    subst hs' hreply
    rw [hdb.element _ _ helement]
    exact ⟨helement, rfl⟩

theorem deleteGroup_errorKeeps (hdb : DeleteLaws db act parts) :
    ErrorKeeps (parts s elementId) (parts (deleteGroup db tools s elementId).1 elementId)
      (deleteGroup db tools s elementId).2 := by
  apply deleted_errorKeeps
  · intro reply h
    simp only [deleteGroupBody, bind_eq_error, require_eq_error, require_eq_ok, pure_ne_error,
      and_false, exists_false, or_false, exists_const, not_not] at h
    rcases h with ⟨hfail, rfl⟩ | ⟨-, hfail, rfl⟩
    · exact hfail
    · exact hfail
  · intro s' reply h
    simp only [deleteGroupBody, bind_eq_ok, pure_eq_ok, require_eq_ok, exists_const,
      Prod.mk.injEq] at h
    obtain ⟨-, helement, hs', hreply⟩ := h
    subst hs' hreply
    rw [hdb.element _ _ helement]
    exact ⟨helement, rfl⟩

/-- The device is deleted, and its licensing fails after that. -/
def DeactivationFails (db : DeleteDb σ) (act : AssetActivator σ) (w : World σ) (elementId : Nat)
    (assetJson : String) : Prop :=
  DeviceDeletes db w.store elementId ∧ assetJson ≠ "" ∧
    ∃ what, (act.deactivate { w with store := deviceDeleted db w.store elementId } assetJson).2 =
      .error what

theorem deleteDevice_errorKeeps_iff (hdb : DeleteLaws db act parts) (w : World σ)
    (assetJson : String) :
    ErrorKeeps (parts w.store elementId)
        (parts (deleteDevice db tools act w elementId assetJson).1.store elementId)
        (deleteDevice db tools act w elementId assetJson).2 ↔
      ¬ (DeactivationFails db act w elementId assetJson ∧ (parts w.store elementId).Holds) := by
  unfold deleteDevice
  cases hbody : deleteDeviceBody db tools w.store elementId with
  | error reply =>
    obtain ⟨hfails, hstatus⟩ := deleteDeviceBody_error hbody
    have hnot : ¬ DeactivationFails db act w elementId assetJson := fun h ↦ hfails h.1
    simp only [hnot, false_and, not_false_eq_true, iff_true]
    constructor
    · intro _
      exact AssetParts.Kept.refl _
    · intro h
      exact absurd hstatus h
  | ok r =>
    obtain ⟨hdeletes, hs, hstatus⟩ := deleteDeviceBody_ok hbody
    have hparts := deviceDeleted_parts hdb hdeletes
    rw [hs] at hparts
    have hgone : (parts r.1 elementId).element = false := by
      rw [hparts]
      rfl
    by_cases hjson : assetJson ≠ ""
    · have hkeep := hdb.deactivate { w with store := r.1 } assetJson elementId
      cases hcall : act.deactivate { w with store := r.1 } assetJson with
      | mk w' answer =>
        rw [hcall] at hkeep
        simp only [if_pos hjson, hcall]
        cases answer with
        | error what =>
          -- the error comes after the commit
          have hfails : DeactivationFails db act w elementId assetJson :=
            ⟨hdeletes, hjson, what, by rw [hs, hcall]⟩
          show ErrorKeeps _ (parts w'.store elementId) (notDeactivated what) ↔ _
          rw [errorKeeps_iff_of_zero rfl, hkeep, hparts, AssetParts.kept_withoutDevice_iff]
          simp only [hfails, true_and]
        | ok _ =>
          have hnot : ¬ DeactivationFails db act w elementId assetJson := by
            intro ⟨_, _, what, hwhat⟩
            rw [hs, hcall] at hwhat
            cases hwhat
          show ErrorKeeps _ (parts w'.store elementId) r.2 ↔ _
          rw [errorKeeps_iff_of_ne_zero hstatus, hkeep]
          simp only [hgone, hnot, false_and, not_false_eq_true]
    · have hnot : ¬ DeactivationFails db act w elementId assetJson := fun h ↦ hjson h.2.1
      simp only [if_neg hjson]
      rw [errorKeeps_iff_of_ne_zero hstatus]
      simp only [hgone, hnot, false_and, not_false_eq_true]

/-- The deletions of everything but devices are honest about errors, and that of a device is so
unless its licensing fails after the commit. -/
theorem deletes_errorKeep_iff (hdb : DeleteLaws db act parts) (tools : Tools) (overridden : Bool)
    (w : World σ) (elementId : Nat) (assetJson : String) :
    (ErrorKeeps (parts w.store elementId)
          (parts (deleteDcRoomRowRack db tools overridden w.store elementId).1 elementId)
          (deleteDcRoomRowRack db tools overridden w.store elementId).2 ∧
        ErrorKeeps (parts w.store elementId)
          (parts (deleteGroup db tools w.store elementId).1 elementId)
          (deleteGroup db tools w.store elementId).2 ∧
        ErrorKeeps (parts w.store elementId)
          (parts (deleteDevice db tools act w elementId assetJson).1.store elementId)
          (deleteDevice db tools act w elementId assetJson).2) ↔
      ¬ (DeactivationFails db act w elementId assetJson ∧ (parts w.store elementId).Holds) := by
  rw [deleteDevice_errorKeeps_iff hdb]
  simp only [deleteDcRoomRowRack_errorKeeps hdb, deleteGroup_errorKeeps hdb, true_and]

end

/-! ## A licensing that does not answer -/

/-- A store that holds nothing but the parts of the assets. -/
def partsDb : DeleteDb (Nat → AssetParts) where
  numDatacentersWithout _ _ := 1
  convertAssetToMonitor _ _ := 0
  deleteAssetElementFromAssetGroups s id :=
    (Function.update s id { s id with groups := [] }, {})
  deleteAssetGroupLinks s id := (Function.update s id { s id with members := [] }, {})
  deleteAssetLinksTo s id := (Function.update s id { s id with links := [] }, {})
  deleteMonitorAssetRelationByA s id := (Function.update s id { s id with monitors := [] }, {})
  deleteAssetElement s id := (Function.update s id { s id with element := false }, {})

def deafActivator : AssetActivator (Nat → AssetParts) where
  activate w _ := (w, .error "no answer")
  deactivate w _ := (w, .error "no answer")

theorem partsDb_laws : DeleteLaws partsDb deafActivator fun s ↦ s where
  groups _ _ _ := Function.update_self _ _ _
  members _ _ _ := Function.update_self _ _ _
  links _ _ _ := Function.update_self _ _ _
  monitors _ _ _ := Function.update_self _ _ _
  element _ _ _ := Function.update_self _ _ _
  deactivate _ _ _ := rfl

/-- A device with a power source. -/
def fedDevice : World (Nat → AssetParts) where
  store := fun _ ↦ { element := true, groups := [7], members := [], links := [3], monitors := [4] }
  activation := fun _ ↦ true

theorem deletes_errorKeep_iff_fedDevice :
    (ErrorKeeps (fedDevice.store 9)
          ((deleteDcRoomRowRack partsDb plainTools false fedDevice.store 9).1 9)
          (deleteDcRoomRowRack partsDb plainTools false fedDevice.store 9).2 ∧
        ErrorKeeps (fedDevice.store 9) ((deleteGroup partsDb plainTools fedDevice.store 9).1 9)
          (deleteGroup partsDb plainTools fedDevice.store 9).2 ∧
        ErrorKeeps (fedDevice.store 9)
          ((deleteDevice partsDb plainTools deafActivator fedDevice 9 "").1.store 9)
          (deleteDevice partsDb plainTools deafActivator fedDevice 9 "").2) ↔
      ¬ (DeactivationFails partsDb deafActivator fedDevice 9 "" ∧ (fedDevice.store 9).Holds) :=
  deletes_errorKeep_iff partsDb_laws plainTools false fedDevice 9 ""

/-- A device is gone from the tables, and its deletion reports an error. -/
theorem device_deleted_with_error :
    (deleteDevice partsDb plainTools deafActivator fedDevice 9 "{}").2.status = 0 ∧
      (deleteDevice partsDb plainTools deafActivator fedDevice 9 "{}").1.store 9 =
        { element := false, groups := [], members := [], links := [], monitors := [] } ∧
      ¬ ErrorKeeps (fedDevice.store 9)
        ((deleteDevice partsDb plainTools deafActivator fedDevice 9 "{}").1.store 9)
        (deleteDevice partsDb plainTools deafActivator fedDevice 9 "{}").2 := by
  refine ⟨rfl, rfl, ?_⟩
  intro h
  have hkept := h.1 rfl
  exact absurd (hkept.1 rfl) (by decide)

end FtyRest.Db
