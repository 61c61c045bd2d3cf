import FtyRest.Db.Store
import FtyRest.Lib.Checks
import FtyRest.Shared.Csv

/-!
# Writing an asset

The update and insert functions of `db/asset_general.cc`.  The body of each one works inside of a
transaction: what it throws is what the source returns after the rollback, with the store as it
was before.
-/

namespace FtyRest.Db

open Shared Checks

section

variable {σ : Type} (db : AssetsDb σ) (tools : Tools)

/-- The arguments that the functions share. -/
structure AssetWrite where
  elementName : String
  elementTypeId : Nat := AssetType.device
  subtypeId : Nat := 0
  parentId : Nat
  extattributes : List (String × String)
  status : String
  priority : Nat
  groups : List Nat
  links : List Link := []
  assetTag : String
  extattributesRO : Option (List (String × String))
deriving Repr

def AssetWrite.columns (a : AssetWrite) (name : String) : ElementColumns where
  name := name
  parentId := a.parentId
  status := a.status
  priority := a.priority
  assetTag := a.assetTag

/-- What the update functions return: the code, and `errmsg`. -/
abbrev UpdateResult := Nat × String

/-- The part that the two update functions have alike, up to the ext attributes. -/
def updateElement (s : σ) (elementId : Nat) (a : AssetWrite) :
    Except UpdateResult (σ × String) := do
  let (s, ret1, affectedRows) := db.updateAssetElement s elementId (a.columns a.elementName)
  require (¬ (ret1 ≠ 0 ∧ affectedRows ≠ 1))
    (1, "check  element name, location, status, priority, asset_tag")
  let (s, ret2) := db.deleteAssetExtAttributesWithRo s elementId false
  require (ret2.status ≠ 0) (2, "cannot erase old external attributes")
  let (s, ret3, errmsg) := db.insertIntoAssetExtAttributes s elementId a.extattributes false ""
  require (ret3.status ≠ 0) (3, tools.jsonify errmsg)
  return (s, errmsg)

/-- The second insertion of attributes, which is left out when none are given. -/
def updateElementRO (s : σ) (elementId : Nat) (extattributesRO : Option (List (String × String)))
    (readOnly : Bool) (errmsg : String) : Except UpdateResult (σ × String) :=
  match extattributesRO with
  | none => return (s, errmsg)
  | some extattributes => do
      let (s, ret31, errmsg) :=
        db.insertIntoAssetExtAttributes s elementId extattributes readOnly errmsg
      require (ret31.status ≠ 0) (31, tools.jsonify errmsg)
      return (s, errmsg)

/-- The transaction of `update_dc_room_row_rack_group`. -/
def updateDcRoomRowRackGroupBody (s : σ) (elementId : Nat) (a : AssetWrite) :
    Except UpdateResult (σ × String) := do
  require (a.status ≠ "nonactive")
    (1, a.elementName ++ ": Element cannot be inactivated. Change status to 'active'.")
  let (s, errmsg) ← updateElement db tools s elementId a
  -- the read-write attributes are inserted once more here
  let (s, errmsg) ← updateElementRO db tools s elementId
    (a.extattributesRO.map fun _ ↦ a.extattributes) false errmsg
  let (s, ret4) := db.deleteAssetElementFromAssetGroups s elementId
  require (ret4.status ≠ 0) (4, "cannot remove element from old groups")
  let (s, ret5) := db.insertElementIntoGroups s a.groups elementId
  require (¬ (ret5.status = 0 ∧ ret5.affectedRows ≠ a.groups.length))
    (5, "cannot insert device into all specified groups")
  return (s, errmsg)

/-- The transaction of `update_device`. -/
def updateDeviceBody (s : σ) (elementId : Nat) (a : AssetWrite) :
    Except UpdateResult (σ × String) := do
  -- dbid for RC_0 is 1
  require (¬ (elementId = 1 ∧ a.status = "nonactive"))
    (1, a.elementName ++
      ": Default rack controller cannot be inactivated. Change status to 'active'.")
  let (s, errmsg) ← updateElement db tools s elementId a
  let (s, errmsg) ← updateElementRO db tools s elementId a.extattributesRO true errmsg
  let (s, ret4) := db.deleteAssetElementFromAssetGroups s elementId
  require (ret4.status ≠ 0) (4, "cannot remove element from old groups")
  let (s, ret5) := db.insertElementIntoGroups s a.groups elementId
  require (ret5.affectedRows = a.groups.length) (5, "cannot insert device into all specified groups")
  -- links don't have 'dest' defined - it was not known until now; we have to fix it
  let links := a.links.map fun link ↦ { link with dest := elementId }
  let (s, ret6) := db.deleteAssetLinksTo s elementId
  require (ret6.status ≠ 0) (6, "cannot remove old power sources")
  let (s, ret7) := db.insertIntoAssetLinks s links
  require (ret7.affectedRows = links.length) (7, "cannot add new power sources")
  return (s, errmsg)

/-- An update commits, or rolls back. -/
def committed (s : σ) : Except UpdateResult (σ × String) → σ × UpdateResult
  | .ok (s', errmsg) => (s', 0, errmsg)
  | .error ret => (s, ret)

def updateDcRoomRowRackGroup (s : σ) (elementId : Nat) (a : AssetWrite) : σ × UpdateResult :=
  committed s (updateDcRoomRowRackGroupBody db tools s elementId a)

def updateDevice (s : σ) (elementId : Nat) (a : AssetWrite) : σ × UpdateResult :=
  committed s (updateDeviceBody db tools s elementId a)

/-! ## Insertions -/

/-- The reply that refuses an input. -/
def badInput (msg : String) : DbReply where
  status := 0
  errtype := .dbErr
  errsubtype := .badInput
  rowid := 8
  msg := msg

/-- A reply as it is returned. -/
def returned (reply : DbReply) : DbReply := { reply with msg := tools.jsonify reply.msg }

def insertElementRO (s : σ) (elementId : Nat) (extattributesRO : Option (List (String × String))) :
    Except DbReply σ :=
  match extattributesRO with
  | none => return s
  | some extattributesRO => do
      let (s, replyInsert21, _) := db.insertIntoAssetExtAttributes s elementId extattributesRO true ""
      require (replyInsert21.status ≠ 0) (returned tools replyInsert21)
      return s

/-- The part that the two insert functions have alike. -/
def insertElement (s : σ) (a : AssetWrite) (iname : String) :
    Except DbReply (σ × DbReply) := do
  let (s, replyInsert1) :=
    db.insertIntoAssetElement s (a.columns iname) a.elementTypeId a.subtypeId
  require (replyInsert1.status ≠ 0) (returned tools replyInsert1)
  let elementId := replyInsert1.rowid
  let (s, replyInsert2, _) := db.insertIntoAssetExtAttributes s elementId a.extattributes false ""
  require (replyInsert2.status ≠ 0) (returned tools replyInsert2)
  let s ← insertElementRO db tools s elementId a.extattributesRO
  let (s, replyInsert3) := db.insertElementIntoGroups s a.groups elementId
  require (¬ (replyInsert3.status = 0 ∧ replyInsert3.affectedRows ≠ a.groups.length))
    (returned tools replyInsert3)
  return (s, replyInsert1)

/-- What is entered into the monitoring part under the asset. -/
def insertMonitor (s : σ) (deviceTypeId : Nat) (elementName : String) (elementId : Nat) :
    Except DbReply σ := do
  let (s, replyInsert4) := db.insertIntoMonitorDevice s deviceTypeId elementName
  require (replyInsert4.status ≠ 0) (returned tools replyInsert4)
  let (s, replyInsert5) :=
    db.insertIntoMonitorAssetRelation s (replyInsert4.rowid % 2 ^ 16) elementId
  require (replyInsert5.status ≠ 0) (returned tools replyInsert5)
  return s

def duplicateMsg (elementName : String) : String :=
  "Element '" ++ elementName ++
    "' cannot be processed because of conflict. Most likely duplicate entry."

/-- `insert_dc_room_row_rack_group`, up to the commit. -/
def insertDcRoomRowRackGroupBody (s : σ) (a : AssetWrite) :
    Except DbReply (σ × DbReply) := do
  require (db.extnameToAssetId s a.elementName = -1) (badInput (duplicateMsg a.elementName))
  let iname := strip (db.typeidToType a.elementTypeId)
  require (a.status ≠ "nonactive") (badInput
    ("Element '" ++ a.elementName ++ "' cannot be inactivated. Change status to 'active'."))
  let (s, replyInsert1) ← insertElement db tools s { a with subtypeId := 0 } iname
  if a.elementTypeId = AssetType.datacenter ∨ a.elementTypeId = AssetType.rack then
    let s ← insertMonitor db tools s 1 a.elementName replyInsert1.rowid
    return (s, returned tools replyInsert1)
  else
    return (s, returned tools replyInsert1)

/-- `insert_device`, up to the commit. -/
def insertDeviceBody (s : σ) (a : AssetWrite) :
    Except DbReply (σ × DbReply) := do
  require (db.extnameToAssetId s a.elementName = -1) (badInput (duplicateMsg a.elementName))
  let iname := strip (db.subtypeidToSubtype a.subtypeId)
  let (s, replyInsert1) ← insertElement db tools s { a with elementTypeId := AssetType.device } iname
  let elementId := replyInsert1.rowid
  -- links don't have 'dest' defined - it was not known until now; we have to fix it
  let links := a.links.map fun link ↦ { link with dest := elementId }
  let (s, replyInsert5) := db.insertIntoAssetLinks s links
  require (replyInsert5.affectedRows = links.length) (returned tools replyInsert5)
  -- BIOS-1962: we do not use this classification. So ignore it.
  match db.selectMonitorDeviceTypeId s "not_classified" with
  | .ok item =>
      let s ← insertMonitor db tools s item a.elementName elementId
      return (s, returned tools replyInsert1)
  | .error reply =>
      -- the device should not be inserted into the monitor part
      require (reply.errsubtype = .notFound) (returned tools reply)
      return (s, returned tools replyInsert1)

/-- An insertion commits, or rolls back. -/
def inserted (s : σ) : Except DbReply (σ × DbReply) → σ × DbReply
  | .ok (s', reply) => (s', reply)
  | .error reply => (s, reply)

def insertDcRoomRowRackGroup (s : σ) (a : AssetWrite) : σ × DbReply :=
  inserted s (insertDcRoomRowRackGroupBody db tools s a)

def insertDevice (s : σ) (a : AssetWrite) : σ × DbReply :=
  inserted s (insertDeviceBody db tools s a)

end

/-! ## What is rolled back -/

section

variable {σ : Type} {db : AssetsDb σ} {tools : Tools} {s : σ} {a : AssetWrite}

theorem committed_of_ne_zero {body : Except UpdateResult (σ × String)}
    (h : (committed s body).2.1 ≠ 0) : (committed s body).1 = s := by
  cases body with
  | error ret => rfl
  | ok r => exact absurd rfl h

theorem updateDevice_rolledBack {elementId : Nat}
    (h : (updateDevice db tools s elementId a).2.1 ≠ 0) :
    (updateDevice db tools s elementId a).1 = s :=
  committed_of_ne_zero h

/-- What is known of the replies to an insertion: a query that fails has the status `0`, and an
insertion of links that is answered with success has inserted all of them. -/
structure InsertReplies (db : AssetsDb σ) : Prop where
  links : ∀ s links, (db.insertIntoAssetLinks s links).2.affectedRows ≠ links.length →
    (db.insertIntoAssetLinks s links).2.status = 0
  monitorType : ∀ s name reply, db.selectMonitorDeviceTypeId s name = .error reply →
    reply.status = 0

theorem insertElementRO_error {elementId : Nat} {ro : Option (List (String × String))}
    {reply : DbReply} (h : insertElementRO db tools s elementId ro = .error reply) :
    reply.status = 0 := by
  cases ro with
  | none => simp [insertElementRO] at h
  | some ro =>
    simp only [insertElementRO, bind_eq_error, require_eq_error, pure_ne_error, and_false,
      exists_false, or_false, not_not] at h
    obtain ⟨hstatus, rfl⟩ := h
    exact hstatus

theorem insertElement_error {iname : String} {reply : DbReply}
    (h : insertElement db tools s a iname = .error reply) : reply.status = 0 := by
  simp only [insertElement, bind_eq_error, require_eq_error, pure_ne_error, and_false,
    exists_false, or_false, not_not] at h
  rcases h with ⟨hstatus, rfl⟩ | ⟨-, -, ⟨hstatus, rfl⟩ | ⟨-, -, h | ⟨s₁, -, ⟨hstatus, -⟩, rfl⟩⟩⟩
  · exact hstatus
  · exact hstatus
  · exact insertElementRO_error h
  · exact hstatus

theorem insertMonitor_error {t elementId : Nat} {name : String} {reply : DbReply}
    (h : insertMonitor db tools s t name elementId = .error reply) : reply.status = 0 := by
  simp only [insertMonitor, bind_eq_error, require_eq_error, pure_ne_error, and_false,
    exists_false, or_false, not_not] at h
  rcases h with ⟨hstatus, rfl⟩ | ⟨-, -, hstatus, rfl⟩
  · exact hstatus
  · exact hstatus

/-- An insertion of a device that is rolled back is answered with the status `0`. -/
theorem insertDeviceBody_error (hdb : InsertReplies db) {reply : DbReply}
    (h : insertDeviceBody db tools s a = .error reply) : reply.status = 0 := by
  simp only [insertDeviceBody, bind_eq_error, require_eq_error, Prod.exists] at h
  rcases h with ⟨-, rfl⟩ | ⟨-, -, h | ⟨s₁, reply₁, -, ⟨hlinks, rfl⟩ | ⟨-, -, h⟩⟩⟩
  · rfl
  · exact insertElement_error h
  · exact hdb.links s₁ _ hlinks
  · split at h
    · simp only [bind_eq_error, pure_ne_error, and_false, exists_false, or_false] at h
      exact insertMonitor_error h
    · rename_i reply₂ hselect
      simp only [bind_eq_error, require_eq_error, pure_ne_error, and_false, exists_false,
        or_false] at h
      obtain ⟨-, rfl⟩ := h
      exact hdb.monitorType _ _ reply₂ hselect

theorem insertDevice_ok (hdb : InsertReplies db) {s' : σ} {reply : DbReply}
    (h : insertDevice db tools s a = (s', reply)) (hstatus : reply.status = 1) :
    insertDeviceBody db tools s a = .ok (s', reply) := by
  unfold insertDevice at h
  cases hbody : insertDeviceBody db tools s a with
  | error reply' =>
    rw [hbody] at h
    obtain ⟨-, rfl⟩ := Prod.mk.inj h
    have := insertDeviceBody_error hdb hbody
    omega
  | ok r =>
    rw [hbody] at h
    exact congrArg Except.ok h

theorem updateElement_error {elementId : Nat} {ret : UpdateResult}
    (h : updateElement db tools s elementId a = .error ret) : ret.1 ≠ 0 := by
  simp only [updateElement, bind_eq_error, require_eq_error, pure_ne_error, and_false,
    exists_false, or_false] at h
  rcases h with ⟨-, rfl⟩ | ⟨-, -, ⟨-, rfl⟩ | ⟨-, -, -, rfl⟩⟩
  all_goals exact Nat.succ_ne_zero _

theorem updateElementRO_error {elementId : Nat} {ro : Option (List (String × String))}
    {readOnly : Bool} {errmsg : String} {ret : UpdateResult}
    (h : updateElementRO db tools s elementId ro readOnly errmsg = .error ret) : ret.1 ≠ 0 := by
  cases ro with
  | none => simp [updateElementRO] at h
  | some ro =>
    simp only [updateElementRO, bind_eq_error, require_eq_error, pure_ne_error, and_false,
      exists_false, or_false] at h
    obtain ⟨-, rfl⟩ := h
    exact Nat.succ_ne_zero _

/-- An update that is rolled back returns a code other than `0`. -/
theorem updateDeviceBody_error {elementId : Nat} {ret : UpdateResult}
    (h : updateDeviceBody db tools s elementId a = .error ret) : ret.1 ≠ 0 := by
  simp only [updateDeviceBody, bind_eq_error, require_eq_error, pure_ne_error, and_false,
    exists_false, or_false, Prod.exists] at h
  rcases h with ⟨-, rfl⟩ | ⟨-, -, h | ⟨s₁, errmsg₁, -, h | ⟨s₂, errmsg₂, -, ⟨-, rfl⟩ |
    ⟨-, -, ⟨-, rfl⟩ | ⟨-, -, ⟨-, rfl⟩ | ⟨-, -, -, rfl⟩⟩⟩⟩⟩⟩
  · exact Nat.succ_ne_zero _
  · exact updateElement_error h
  · exact updateElementRO_error h
  all_goals exact Nat.succ_ne_zero _

theorem updateDevice_ok_iff {elementId : Nat} {s' : σ} {errmsg : String} :
    updateDevice db tools s elementId a = (s', 0, errmsg) ↔
      updateDeviceBody db tools s elementId a = .ok (s', errmsg) := by
  unfold updateDevice
  cases h : updateDeviceBody db tools s elementId a with
  | error ret =>
    have hne := updateDeviceBody_error h
    simp only [committed, Prod.mk.injEq, reduceCtorEq, iff_false, not_and]
    rintro - rfl
    exact absurd rfl hne
  | ok r => simp [committed, Prod.ext_iff]

theorem updateDcRoomRowRackGroupBody_error {elementId : Nat} {ret : UpdateResult}
    (h : updateDcRoomRowRackGroupBody db tools s elementId a = .error ret) : ret.1 ≠ 0 := by
  simp only [updateDcRoomRowRackGroupBody, bind_eq_error, require_eq_error, pure_ne_error,
    and_false, exists_false, or_false, Prod.exists] at h
  rcases h with ⟨-, rfl⟩ | ⟨-, -, h | ⟨s₁, errmsg₁, -, h | ⟨s₂, errmsg₂, -, ⟨-, rfl⟩ |
    ⟨-, -, -, rfl⟩⟩⟩⟩
  · exact Nat.succ_ne_zero _
  · exact updateElement_error h
  · exact updateElementRO_error h
  all_goals exact Nat.succ_ne_zero _

theorem updateDcRoomRowRackGroup_ok_iff {elementId : Nat} {s' : σ} {errmsg : String} :
    updateDcRoomRowRackGroup db tools s elementId a = (s', 0, errmsg) ↔
      updateDcRoomRowRackGroupBody db tools s elementId a = .ok (s', errmsg) := by
  unfold updateDcRoomRowRackGroup
  cases h : updateDcRoomRowRackGroupBody db tools s elementId a with
  | error ret =>
    have hne := updateDcRoomRowRackGroupBody_error h
    simp only [committed, Prod.mk.injEq, reduceCtorEq, iff_false, not_and]
    rintro - rfl
    exact absurd rfl hne
  | ok r => simp [committed, Prod.ext_iff]

end

/-! ## The status column -/

section

variable {σ : Type}

/-- What is known of the status of the assets, `none` for an id that is not there: the element
functions write it, and the other ones leave it alone. -/
structure StatusColumn (db : AssetsDb σ) (status : σ → Nat → Option String) : Prop where
  select : ∀ s id element, db.selectAssetElementWebById s id = .ok element → (status s id).isSome
  update : ∀ s id c, (status s id).isSome → (db.updateAssetElement s id c).2.1 = 0 →
    status (db.updateAssetElement s id c).1 id = some c.status
  updateFails : ∀ s id c, (db.updateAssetElement s id c).2.1 ≠ 0 →
    (db.updateAssetElement s id c).2.2 ≠ 1
  insert : ∀ s c t u, (db.insertIntoAssetElement s c t u).2.status ≠ 0 →
    status (db.insertIntoAssetElement s c t u).1 (db.insertIntoAssetElement s c t u).2.rowid =
      some c.status
  deleteExt : ∀ s id ro, status (db.deleteAssetExtAttributesWithRo s id ro).1 = status s
  insertExt : ∀ s id ext ro errmsg,
    status (db.insertIntoAssetExtAttributes s id ext ro errmsg).1 = status s
  deleteGroups : ∀ s id, status (db.deleteAssetElementFromAssetGroups s id).1 = status s
  insertGroups : ∀ s groups id, status (db.insertElementIntoGroups s groups id).1 = status s
  deleteLinks : ∀ s id, status (db.deleteAssetLinksTo s id).1 = status s
  insertLinks : ∀ s links, status (db.insertIntoAssetLinks s links).1 = status s
  insertMonitor : ∀ s t name, status (db.insertIntoMonitorDevice s t name).1 = status s
  insertRelation : ∀ s m id, status (db.insertIntoMonitorAssetRelation s m id).1 = status s

variable {db : AssetsDb σ} {status : σ → Nat → Option String} {tools : Tools} {s s' : σ}
  {a : AssetWrite}

theorem updateElement_status (hdb : StatusColumn db status) {elementId : Nat} {errmsg : String}
    (hthere : (status s elementId).isSome)
    (h : updateElement db tools s elementId a = .ok (s', errmsg)) :
    status s' elementId = some a.status := by
  simp only [updateElement, bind_eq_ok, pure_eq_ok, require_eq_ok, Prod.mk.injEq] at h
  obtain ⟨-, hret, -, -, -, -, rfl, -⟩ := h
  have hzero : (db.updateAssetElement s elementId (a.columns a.elementName)).2.1 = 0 := by
    by_contra hne
    exact hret ⟨hne, hdb.updateFails s elementId _ hne⟩
  rw [hdb.insertExt, hdb.deleteExt]
  exact hdb.update s elementId _ hthere hzero

theorem updateElementRO_status (hdb : StatusColumn db status) {elementId : Nat}
    {ro : Option (List (String × String))} {readOnly : Bool} {errmsg errmsg' : String}
    (h : updateElementRO db tools s elementId ro readOnly errmsg = .ok (s', errmsg')) :
    status s' = status s := by
  cases ro with
  | none =>
    simp only [updateElementRO, pure_eq_ok, Prod.mk.injEq] at h
    rw [← h.1]
  | some ro =>
    simp only [updateElementRO, bind_eq_ok, pure_eq_ok, Prod.mk.injEq] at h
    obtain ⟨-, -, rfl, -⟩ := h
    exact hdb.insertExt s elementId ro readOnly errmsg

/-- A device that is updated has the status that was asked for. -/
theorem updateDevice_status (hdb : StatusColumn db status) {elementId : Nat} {errmsg : String}
    (hthere : (status s elementId).isSome)
    (h : updateDevice db tools s elementId a = (s', 0, errmsg)) :
    status s' elementId = some a.status := by
  rw [updateDevice_ok_iff] at h
  simp only [updateDeviceBody, bind_eq_ok, pure_eq_ok, Prod.exists, Prod.mk.injEq] at h
  obtain ⟨-, -, s₁, errmsg₁, hupdate, s₂, errmsg₂, hro, -, -, -, -, -, -, -, -, rfl, -⟩ := h
  rw [hdb.insertLinks, hdb.deleteLinks, hdb.insertGroups, hdb.deleteGroups,
    updateElementRO_status hdb hro]
  exact updateElement_status hdb hthere hupdate

theorem insertElement_stored (hdb : StatusColumn db status) {iname : String} {reply : DbReply}
    (h : insertElement db tools s a iname = .ok (s', reply)) :
    status s' reply.rowid = some a.status := by
  simp only [insertElement, bind_eq_ok, pure_eq_ok, require_eq_ok, Prod.mk.injEq] at h
  obtain ⟨-, hstatus, -, -, s₁, hro, -, -, rfl, rfl⟩ := h
  have hsame : status s₁ = status (db.insertIntoAssetExtAttributes
      (db.insertIntoAssetElement s (a.columns iname) a.elementTypeId a.subtypeId).1
      (db.insertIntoAssetElement s (a.columns iname) a.elementTypeId a.subtypeId).2.rowid
      a.extattributes false "").1 := by
    cases hext : a.extattributesRO with
    | none =>
      simp only [insertElementRO, hext, pure_eq_ok] at hro
      rw [← hro]
    | some ro =>
      simp only [insertElementRO, hext, bind_eq_ok, pure_eq_ok] at hro
      obtain ⟨-, -, rfl⟩ := hro
      exact hdb.insertExt _ _ ro true ""
  rw [hdb.insertGroups, hsame, hdb.insertExt]
  exact hdb.insert s (a.columns iname) a.elementTypeId a.subtypeId hstatus

theorem insertMonitor_status (hdb : StatusColumn db status) {t elementId : Nat} {name : String}
    (h : insertMonitor db tools s t name elementId = .ok s') : status s' = status s := by
  simp only [insertMonitor, bind_eq_ok, pure_eq_ok] at h
  obtain ⟨-, -, -, -, rfl⟩ := h
  rw [hdb.insertRelation, hdb.insertMonitor]

theorem insertDeviceBody_stored (hdb : StatusColumn db status) {reply : DbReply}
    (h : insertDeviceBody db tools s a = .ok (s', reply)) :
    status s' reply.rowid = some a.status := by
  simp only [insertDeviceBody, bind_eq_ok, Prod.exists] at h
  obtain ⟨-, -, s₁, reply₁, hinsert, -, -, h⟩ := h
  have hstored := insertElement_stored hdb hinsert
  split at h
  · simp only [bind_eq_ok, pure_eq_ok, Prod.mk.injEq] at h
    obtain ⟨s₂, hmonitor, rfl, rfl⟩ := h
    rw [insertMonitor_status hdb hmonitor, hdb.insertLinks]
    exact hstored
  · simp only [bind_eq_ok, pure_eq_ok, Prod.mk.injEq] at h
    obtain ⟨-, -, rfl, rfl⟩ := h
    rw [hdb.insertLinks]
    exact hstored

end

end FtyRest.Db
