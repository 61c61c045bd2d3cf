import FtyRest.Db.StoredAttributes

/-!
# Writing all or nothing

The writing functions of `asset_general.cc` run a series of sub-operations, and each of them is
tested in one of three ways: by its status, by the number of rows that it affected, or by both at
once.  Here is which failures the tests let pass.
-/

namespace FtyRest.Db

open Shared Checks

/-- What a sub-operation answered, and the number of rows that it was asked for. -/
structure Outcome where
  ok : Bool
  affected : Nat
  requested : Nat
deriving DecidableEq, Repr

namespace Outcome

def Succeeded (o : Outcome) : Prop := o.ok = true ∧ o.requested ≤ o.affected

/-- A failure that only the number of rows tells. -/
def Short (o : Outcome) : Prop := o.ok = true ∧ o.affected < o.requested

/-- A failure that only the status tells. -/
def Refused (o : Outcome) : Prop := o.ok = false ∧ o.affected = o.requested

/-- The test that stops only if both tell a failure. -/
def Tolerated (o : Outcome) : Prop := ¬ (o.ok = false ∧ o.affected ≠ o.requested)

variable {o : Outcome}

theorem succeeded_iff_of_ok (h : o.ok = true) : o.Succeeded ↔ ¬ o.Short := by
  simp [Succeeded, Short, h]

theorem succeeded_iff_of_affected (h : o.affected = o.requested) : o.Succeeded ↔ ¬ o.Refused := by
  simp [Succeeded, Refused, h]

theorem succeeded_iff_of_tolerated (h : o.Tolerated) :
    o.Succeeded ↔ ¬ o.Short ∧ ¬ o.Refused := by
  unfold Tolerated at h
  unfold Succeeded Short Refused
  cases hok : o.ok with
  | false =>
    rw [hok] at h
    simp_all
  | true => simp

end Outcome

/-- An operation that tests nothing but the status of a reply. -/
def DbReply.outcome (reply : DbReply) (requested : Nat) : Outcome :=
  ⟨reply.status ≠ 0, reply.affectedRows, requested⟩

/-- The numbers of rows that the insertions are asked for, where the source names none. -/
structure Requested where
  element : Nat
  ext : Nat
  ro : Nat
  monitorDevice : Nat
  relation : Nat

section

variable {σ : Type} (db : AssetsDb σ) (q : Requested)

/-- The sub-operations of an update, one after the other, and the stores that they leave: with the
attributes written, and with the groups written. -/
structure UpdateRun (σ : Type) where
  element : Outcome
  deleteExt : Outcome
  ext : Outcome
  ro : Option Outcome
  attributes : σ
  deleteGroups : Outcome
  groups : Outcome
  store : σ

def roRun (s : σ) (elementId : Nat) (ro : Option (List (String × String))) (readOnly : Bool)
    (errmsg : String) : σ × Option Outcome :=
  match ro with
  | none => (s, none)
  | some attrs =>
      let (s, reply, _) := db.insertIntoAssetExtAttributes s elementId attrs readOnly errmsg
      (s, some (reply.outcome q.ro))

def updateRun (s : σ) (elementId : Nat) (a : AssetWrite) (ro : Option (List (String × String)))
    (readOnly : Bool) : UpdateRun σ :=
  let element := db.updateAssetElement s elementId (a.columns a.elementName)
  let deleteExt := db.deleteAssetExtAttributesWithRo element.1 elementId false
  let ext := db.insertIntoAssetExtAttributes deleteExt.1 elementId a.extattributes false ""
  let ro := roRun db q ext.1 elementId ro readOnly ext.2.2
  let deleteGroups := db.deleteAssetElementFromAssetGroups ro.1 elementId
  let groups := db.insertElementIntoGroups deleteGroups.1 a.groups elementId
  { element := ⟨element.2.1 = 0, element.2.2, 1⟩
    deleteExt := deleteExt.2.outcome 0
    ext := ext.2.1.outcome q.ext
    ro := ro.2
    attributes := ro.1
    deleteGroups := deleteGroups.2.outcome 0
    groups := groups.2.outcome a.groups.length
    store := groups.1 }

/-- The sub-operations on the links of a device. -/
structure LinksRun (σ : Type) where
  deleteLinks : Outcome
  links : Outcome
  store : σ

def linksRun (s : σ) (elementId : Nat) (links : List Link) : LinksRun σ :=
  let deleteLinks := db.deleteAssetLinksTo s elementId
  let links := links.map fun link ↦ { link with dest := elementId }
  let insertLinks := db.insertIntoAssetLinks deleteLinks.1 links
  { deleteLinks := deleteLinks.2.outcome 0
    links := insertLinks.2.outcome links.length
    store := insertLinks.1 }

def UpdateRun.outcomes (r : UpdateRun σ) : List Outcome :=
  [r.element, r.deleteExt, r.ext] ++ r.ro.toList ++ [r.deleteGroups, r.groups]

/-- The tests that the two updates have alike. -/
def UpdateRun.Passes (r : UpdateRun σ) : Prop :=
  r.element.Tolerated ∧ r.deleteExt.ok = true ∧ r.ext.ok = true ∧ (∀ o ∈ r.ro, o.ok = true) ∧
    r.deleteGroups.ok = true

/-- The failures that these tests let pass. -/
def UpdateRun.Misses (r : UpdateRun σ) : Prop :=
  r.element.Short ∨ r.element.Refused ∨ r.ext.Short ∨ ∃ o ∈ r.ro, o.Short

/-- What an insertion of an asset does first, whatever its type is. -/
structure InsertRun (σ : Type) where
  element : Outcome
  reply : DbReply
  ext : Outcome
  ro : Option Outcome
  groups : Outcome
  store : σ

def insertRun (s : σ) (a : AssetWrite) (iname : String) : InsertRun σ :=
  let element := db.insertIntoAssetElement s (a.columns iname) a.elementTypeId a.subtypeId
  let elementId := element.2.rowid
  let ext := db.insertIntoAssetExtAttributes element.1 elementId a.extattributes false ""
  let ro := roRun db q ext.1 elementId a.extattributesRO true ""
  let groups := db.insertElementIntoGroups ro.1 a.groups elementId
  { element := element.2.outcome q.element
    reply := element.2
    ext := ext.2.1.outcome q.ext
    ro := ro.2
    groups := groups.2.outcome a.groups.length
    store := groups.1 }

/-- The sub-operations on the monitoring part. -/
structure MonitorRun (σ : Type) where
  device : Outcome
  relation : Outcome
  store : σ

def monitorRun (s : σ) (deviceTypeId : Nat) (elementName : String) (elementId : Nat) :
    MonitorRun σ :=
  let device := db.insertIntoMonitorDevice s deviceTypeId elementName
  let relation := db.insertIntoMonitorAssetRelation device.1 (device.2.rowid % 2 ^ 16) elementId
  { device := device.2.outcome q.monitorDevice
    relation := relation.2.outcome q.relation
    store := relation.1 }

def InsertRun.outcomes (r : InsertRun σ) : List Outcome :=
  [r.element, r.ext] ++ r.ro.toList ++ [r.groups]

/-- The tests that the two insertions have alike. -/
def InsertRun.Passes (r : InsertRun σ) : Prop :=
  r.element.ok = true ∧ r.ext.ok = true ∧ (∀ o ∈ r.ro, o.ok = true) ∧ r.groups.Tolerated

/-- The failures that these tests let pass. -/
def InsertRun.Misses (r : InsertRun σ) : Prop :=
  r.element.Short ∨ r.ext.Short ∨ (∃ o ∈ r.ro, o.Short) ∨ r.groups.Short ∨ r.groups.Refused

def MonitorRun.outcomes (monitor : Option (MonitorRun σ)) : List Outcome :=
  monitor.toList.flatMap fun m ↦ [m.device, m.relation]

def MonitorRun.Passes (monitor : Option (MonitorRun σ)) : Prop :=
  ∀ m ∈ monitor, m.device.ok = true ∧ m.relation.ok = true

def MonitorRun.Misses (monitor : Option (MonitorRun σ)) : Prop :=
  ∃ m ∈ monitor, m.device.Short ∨ m.relation.Short

/-- The store after the monitoring part, if there is one. -/
def MonitorRun.final (monitor : Option (MonitorRun σ)) (s : σ) : σ :=
  (monitor.map MonitorRun.store).getD s

@[simp]
theorem MonitorRun.passes_none : MonitorRun.Passes (none : Option (MonitorRun σ)) ↔ True := by
  simp [MonitorRun.Passes]

@[simp]
theorem MonitorRun.passes_some {m : MonitorRun σ} :
    MonitorRun.Passes (some m) ↔ m.device.ok = true ∧ m.relation.ok = true := by
  simp [MonitorRun.Passes]

@[simp]
theorem MonitorRun.final_none {s : σ} : MonitorRun.final none s = s := rfl

@[simp]
theorem MonitorRun.final_some {m : MonitorRun σ} {s : σ} :
    MonitorRun.final (some m) s = m.store := rfl

/-- Only datacenters and racks have a monitoring part, unless they are devices. -/
def monitorRunOfType (s : σ) (a : AssetWrite) (elementId : Nat) : Option (MonitorRun σ) :=
  if a.elementTypeId = AssetType.datacenter ∨ a.elementTypeId = AssetType.rack then
    some (monitorRun db q s 1 a.elementName elementId)
  else
    none

def monitorRunOfDevice (s : σ) (a : AssetWrite) (elementId : Nat) : Option (MonitorRun σ) :=
  match db.selectMonitorDeviceTypeId s "not_classified" with
  | .ok item => some (monitorRun db q s item a.elementName elementId)
  | .error _ => none

/-- The links of a device that is new. -/
def insertedLinks (s : σ) (elementId : Nat) (links : List Link) : σ × DbReply :=
  db.insertIntoAssetLinks s (links.map fun link ↦ { link with dest := elementId })

end

/-- Either the operation commits, reports success, and every sub-operation succeeded, or it reports
an error and the store is as it was. -/
def AllOrNothing {σ : Type} (commits success : Prop) (outcomes : List Outcome) (s final s' : σ) :
    Prop :=
  commits ∧ success ∧ s' = final ∧ (∀ o ∈ outcomes, o.Succeeded) ∨ ¬ success ∧ s' = s

section

variable {σ : Type} {db : AssetsDb σ} {tools : Tools} {q : Requested} {s s' : σ} {a : AssetWrite}
  {elementId : Nat}

@[simp]
theorem outcome_ok {reply : DbReply} {requested : Nat} :
    (reply.outcome requested).ok = true ↔ reply.status ≠ 0 := by
  simp [DbReply.outcome]

theorem outcome_tolerated {reply : DbReply} {requested : Nat} :
    (reply.outcome requested).Tolerated ↔
      ¬ (reply.status = 0 ∧ reply.affectedRows ≠ requested) := by
  simp [DbReply.outcome, Outcome.Tolerated]

/-- The first part of an update goes through when its three tests do. -/
theorem updateElement_eq_ok {errmsg : String} :
    updateElement db tools s elementId a = .ok (s', errmsg) ↔
      let element := db.updateAssetElement s elementId (a.columns a.elementName)
      let deleteExt := db.deleteAssetExtAttributesWithRo element.1 elementId false
      let ext := db.insertIntoAssetExtAttributes deleteExt.1 elementId a.extattributes false ""
      ¬ (element.2.1 ≠ 0 ∧ element.2.2 ≠ 1) ∧ deleteExt.2.status ≠ 0 ∧ ext.2.1.status ≠ 0 ∧
        ext.1 = s' ∧ ext.2.2 = errmsg := by
  simp only [updateElement, bind_eq_ok, pure_eq_ok, require_eq_ok, Prod.mk.injEq, exists_const]

theorem updateElementRO_eq_ok {ro : Option (List (String × String))} {readOnly : Bool}
    {errmsg : String} :
    (∃ errmsg', updateElementRO db tools s elementId ro readOnly errmsg = .ok (s', errmsg')) ↔
      (∀ o ∈ (roRun db q s elementId ro readOnly errmsg).2, o.ok = true) ∧
        (roRun db q s elementId ro readOnly errmsg).1 = s' := by
  -- without such attributes there is no write, and so no outcome
  cases ro with
  | none => simp [updateElementRO, roRun]
  | some attrs =>
    simp only [updateElementRO, roRun, bind_eq_ok, pure_eq_ok, require_eq_ok, exists_const,
      Prod.mk.injEq, exists_and_left, exists_eq', and_true, Option.mem_some_iff, forall_eq',
      outcome_ok]

theorem insertElementRO_eq_ok {ro : Option (List (String × String))} :
    insertElementRO db tools s elementId ro = .ok s' ↔
      (∀ o ∈ (roRun db q s elementId ro true "").2, o.ok = true) ∧
        (roRun db q s elementId ro true "").1 = s' := by
  cases ro with
  | none => simp [insertElementRO, roRun]
  | some attrs =>
    simp only [insertElementRO, roRun, bind_eq_ok, pure_eq_ok, require_eq_ok, exists_const,
      Option.mem_some_iff, forall_eq', outcome_ok]

/-- What the two updates do before the groups. -/
theorem updateAttributes_eq_ok (tools : Tools) (q : Requested)
    {ro : Option (List (String × String))} {readOnly : Bool} :
    (∃ s₁ errmsg₁, updateElement db tools s elementId a = .ok (s₁, errmsg₁) ∧
        ∃ errmsg, updateElementRO db tools s₁ elementId ro readOnly errmsg₁ = .ok (s', errmsg)) ↔
      let run := updateRun db q s elementId a ro readOnly
      run.element.Tolerated ∧ run.deleteExt.ok = true ∧ run.ext.ok = true ∧
        (∀ o ∈ run.ro, o.ok = true) ∧ run.attributes = s' := by
  simp only [updateElement_eq_ok, updateElementRO_eq_ok (q := q), updateRun, outcome_ok,
    Outcome.Tolerated, decide_eq_false_iff_not]
  constructor
  · intro ⟨s₁, errmsg₁, ⟨h₁, h₂, h₃, hs₁, herrmsg₁⟩, hro, hs'⟩
    subst hs₁ herrmsg₁
    exact ⟨h₁, h₂, h₃, hro, hs'⟩
  · intro ⟨h₁, h₂, h₃, hro, hs'⟩
    exact ⟨_, _, ⟨h₁, h₂, h₃, rfl, rfl⟩, hro, hs'⟩

/-- The read-write attributes are written again where read-only ones are given. -/
def dcUpdateRun (db : AssetsDb σ) (q : Requested) (s : σ) (elementId : Nat) (a : AssetWrite) :
    UpdateRun σ :=
  updateRun db q s elementId a (a.extattributesRO.map fun _ ↦ a.extattributes) false

def deviceUpdateRun (db : AssetsDb σ) (q : Requested) (s : σ) (elementId : Nat) (a : AssetWrite) :
    UpdateRun σ :=
  updateRun db q s elementId a a.extattributesRO true

theorem updateDcRoomRowRackGroupBody_eq_ok :
    (∃ errmsg, updateDcRoomRowRackGroupBody db tools s elementId a = .ok (s', errmsg)) ↔
      let run := dcUpdateRun db q s elementId a
      a.status ≠ "nonactive" ∧ run.Passes ∧ run.groups.Tolerated ∧ run.store = s' := by
  simp only [updateDcRoomRowRackGroupBody, bind_eq_ok, pure_eq_ok, require_eq_ok, Prod.exists,
    Prod.mk.injEq, exists_const]
  constructor
  · rintro ⟨_, hstatus, s₁, errmsg₁, hupdate, s₂, errmsg₂, hro, h₄, h₅, hs', _⟩
    obtain ⟨h₁, h₂, h₃, h₃₁, hs₂⟩ :=
      (updateAttributes_eq_ok tools q).mp ⟨s₁, errmsg₁, hupdate, errmsg₂, hro⟩
    subst hs₂
    exact ⟨hstatus, ⟨h₁, h₂, h₃, h₃₁, outcome_ok.mpr h₄⟩, outcome_tolerated.mpr h₅, hs'⟩
  · rintro ⟨hstatus, ⟨h₁, h₂, h₃, h₃₁, h₄⟩, h₅, hs'⟩
    obtain ⟨s₁, errmsg₁, hupdate, errmsg₂, hro⟩ :=
      (updateAttributes_eq_ok tools q).mpr ⟨h₁, h₂, h₃, h₃₁, rfl⟩
    exact ⟨errmsg₂, hstatus, s₁, errmsg₁, hupdate, _, errmsg₂, hro, outcome_ok.mp h₄,
      outcome_tolerated.mp h₅, hs', rfl⟩

theorem updateDeviceBody_eq_ok :
    (∃ errmsg, updateDeviceBody db tools s elementId a = .ok (s', errmsg)) ↔
      let run := deviceUpdateRun db q s elementId a
      let linksRun := linksRun db run.store elementId a.links
      ¬ (elementId = 1 ∧ a.status = "nonactive") ∧ run.Passes ∧
        run.groups.affected = run.groups.requested ∧ linksRun.deleteLinks.ok = true ∧
        linksRun.links.affected = linksRun.links.requested ∧ linksRun.store = s' := by
  simp only [updateDeviceBody, bind_eq_ok, pure_eq_ok, require_eq_ok, Prod.exists,
    Prod.mk.injEq, exists_const]
  constructor
  · rintro ⟨_, hstatus, s₁, errmsg₁, hupdate, s₂, errmsg₂, hro, h₄, h₅, h₆, h₇, hs', _⟩
    obtain ⟨h₁, h₂, h₃, h₃₁, hs₂⟩ :=
      (updateAttributes_eq_ok tools q).mp ⟨s₁, errmsg₁, hupdate, errmsg₂, hro⟩
    subst hs₂
    exact ⟨hstatus, ⟨h₁, h₂, h₃, h₃₁, outcome_ok.mpr h₄⟩, h₅, outcome_ok.mpr h₆, h₇, hs'⟩
  · rintro ⟨hstatus, ⟨h₁, h₂, h₃, h₃₁, h₄⟩, h₅, h₆, h₇, hs'⟩
    obtain ⟨s₁, errmsg₁, hupdate, errmsg₂, hro⟩ :=
      (updateAttributes_eq_ok tools q).mpr ⟨h₁, h₂, h₃, h₃₁, rfl⟩
    exact ⟨errmsg₂, hstatus, s₁, errmsg₁, hupdate, _, errmsg₂, hro, outcome_ok.mp h₄, h₅,
      outcome_ok.mp h₆, h₇, hs', rfl⟩

theorem insertElement_eq_ok {iname : String} {reply : DbReply} :
    insertElement db tools s a iname = .ok (s', reply) ↔
      let run := insertRun db q s a iname
      run.Passes ∧ run.store = s' ∧ run.reply = reply := by
  simp only [insertElement, bind_eq_ok, pure_eq_ok, require_eq_ok, Prod.mk.injEq, exists_const,
    insertElementRO_eq_ok (q := q)]
  constructor
  · rintro ⟨h₁, h₂, s₁, ⟨hro, hs₁⟩, h₃, hs', hreply⟩
    subst hs₁
    exact ⟨⟨outcome_ok.mpr h₁, outcome_ok.mpr h₂, hro, outcome_tolerated.mpr h₃⟩, hs', hreply⟩
  · rintro ⟨⟨h₁, h₂, hro, h₃⟩, hs', hreply⟩
    exact ⟨outcome_ok.mp h₁, outcome_ok.mp h₂, _, ⟨hro, rfl⟩, outcome_tolerated.mp h₃, hs', hreply⟩

theorem insertMonitor_eq_ok {deviceTypeId : Nat} {elementName : String} :
    insertMonitor db tools s deviceTypeId elementName elementId = .ok s' ↔
      let run := monitorRun db q s deviceTypeId elementName elementId
      run.device.ok = true ∧ run.relation.ok = true ∧ run.store = s' := by
  simp only [insertMonitor, bind_eq_ok, pure_eq_ok, require_eq_ok, exists_const, monitorRun,
    outcome_ok]

/-- The insertion of anything but a device, and its monitoring part. -/
def dcInsertRun (db : AssetsDb σ) (q : Requested) (s : σ) (a : AssetWrite) : InsertRun σ :=
  insertRun db q s { a with subtypeId := 0 } (strip (db.typeidToType a.elementTypeId))

def dcMonitorRun (db : AssetsDb σ) (q : Requested) (s : σ) (a : AssetWrite) :
    Option (MonitorRun σ) :=
  let run := dcInsertRun db q s a
  monitorRunOfType db q run.store a run.reply.rowid

theorem insertDcRoomRowRackGroupBody_eq_ok {reply : DbReply} :
    insertDcRoomRowRackGroupBody db tools s a = .ok (s', reply) ↔
      let run := dcInsertRun db q s a
      let monitor := dcMonitorRun db q s a
      db.extnameToAssetId s a.elementName = -1 ∧ a.status ≠ "nonactive" ∧ run.Passes ∧
        MonitorRun.Passes monitor ∧ MonitorRun.final monitor run.store = s' ∧
        returned tools run.reply = reply := by
  simp only [insertDcRoomRowRackGroupBody, bind_eq_ok, require_eq_ok, exists_const, Prod.exists,
    insertElement_eq_ok (q := q), dcMonitorRun, monitorRunOfType]
  -- only a datacenter and a rack have a monitor entry
  by_cases htype : a.elementTypeId = AssetType.datacenter ∨ a.elementTypeId = AssetType.rack
  · simp only [if_pos htype, bind_eq_ok, pure_eq_ok, insertMonitor_eq_ok (q := q), Prod.mk.injEq,
      MonitorRun.passes_some, MonitorRun.final_some]
    constructor
    · rintro ⟨hname, hstatus, s₁, reply₁, ⟨hpasses, hs₁, hreply₁⟩, s₂, ⟨h₁, h₂, hs₂⟩, hs', hreply⟩
      subst hs₁ hreply₁ hs₂
      exact ⟨hname, hstatus, hpasses, ⟨h₁, h₂⟩, hs', hreply⟩
    · rintro ⟨hname, hstatus, hpasses, ⟨h₁, h₂⟩, hs', hreply⟩
      exact ⟨hname, hstatus, _, _, ⟨hpasses, rfl, rfl⟩, _, ⟨h₁, h₂, rfl⟩, hs', hreply⟩
  · simp only [if_neg htype, pure_eq_ok, Prod.mk.injEq, MonitorRun.passes_none,
      MonitorRun.final_none, true_and]
    constructor
    · rintro ⟨hname, hstatus, s₁, reply₁, ⟨hpasses, hs₁, hreply₁⟩, hs', hreply⟩
      subst hs₁ hreply₁
      exact ⟨hname, hstatus, hpasses, hs', hreply⟩
    · rintro ⟨hname, hstatus, hpasses, hs', hreply⟩
      exact ⟨hname, hstatus, _, _, ⟨hpasses, rfl, rfl⟩, hs', hreply⟩

/-- The insertion of a device, its links, and its monitoring part. -/
def deviceInsertRun (db : AssetsDb σ) (q : Requested) (s : σ) (a : AssetWrite) : InsertRun σ :=
  insertRun db q s { a with elementTypeId := AssetType.device }
    (strip (db.subtypeidToSubtype a.subtypeId))

def deviceLinks (db : AssetsDb σ) (q : Requested) (s : σ) (a : AssetWrite) : σ × DbReply :=
  let run := deviceInsertRun db q s a
  insertedLinks db run.store run.reply.rowid a.links

def deviceMonitorRun (db : AssetsDb σ) (q : Requested) (s : σ) (a : AssetWrite) :
    Option (MonitorRun σ) :=
  monitorRunOfDevice db q (deviceLinks db q s a).1 a (deviceInsertRun db q s a).reply.rowid

/-- The device has a monitoring type, or it is known to have none. -/
def Answered (select : Except DbReply Nat) : Prop :=
  ∀ reply, select = .error reply → reply.errsubtype = .notFound

theorem deviceMonitor_eq_ok {select : Except DbReply Nat} {elementName : String}
    {reply₁ reply : DbReply} :
    (match select with
      | .ok item => do
          let s ← insertMonitor db tools s item elementName elementId
          return (s, returned tools reply₁)
      | .error reply => do
          require (reply.errsubtype = ErrNo.notFound) (returned tools reply)
          return (s, returned tools reply₁)) = .ok (s', reply) ↔
      let monitor := match select with
        | .ok item => some (monitorRun db q s item elementName elementId)
        | .error _ => none
      Answered select ∧ MonitorRun.Passes monitor ∧ MonitorRun.final monitor s = s' ∧
        returned tools reply₁ = reply := by
  cases select with
  | ok item =>
    simp only [Answered, reduceCtorEq, false_implies, implies_true, true_and, bind_eq_ok,
      pure_eq_ok, insertMonitor_eq_ok (q := q), Prod.mk.injEq, MonitorRun.passes_some,
      MonitorRun.final_some]
    constructor
    · rintro ⟨s₂, ⟨h₁, h₂, hs₂⟩, hs', hreply⟩
      subst hs₂
      exact ⟨⟨h₁, h₂⟩, hs', hreply⟩
    · rintro ⟨⟨h₁, h₂⟩, hs', hreply⟩
      exact ⟨_, ⟨h₁, h₂, rfl⟩, hs', hreply⟩
  -- an unknown monitor type is no failure, any other error is
  | error reply₂ =>
    simp only [Answered, Except.error.injEq, forall_eq', bind_eq_ok, require_eq_ok, exists_const,
      pure_eq_ok, Prod.mk.injEq, MonitorRun.passes_none, MonitorRun.final_none, true_and]

theorem insertDeviceBody_eq_ok {reply : DbReply} :
    insertDeviceBody db tools s a = .ok (s', reply) ↔
      let run := deviceInsertRun db q s a
      let links := deviceLinks db q s a
      let monitor := deviceMonitorRun db q s a
      db.extnameToAssetId s a.elementName = -1 ∧ run.Passes ∧
        links.2.affectedRows = a.links.length ∧
        Answered (db.selectMonitorDeviceTypeId links.1 "not_classified") ∧
        MonitorRun.Passes monitor ∧ MonitorRun.final monitor links.1 = s' ∧
        returned tools run.reply = reply := by
  simp only [insertDeviceBody, bind_eq_ok, require_eq_ok, exists_const, Prod.exists,
    insertElement_eq_ok (q := q), List.length_map]
  constructor
  · intro ⟨hname, s₁, reply₁, ⟨hpasses, hs₁, hreply₁⟩, hlinks, h⟩
    subst hs₁ hreply₁
    exact ⟨hname, hpasses, hlinks, deviceMonitor_eq_ok.mp h⟩
  · intro ⟨hname, hpasses, hlinks, h⟩
    exact ⟨hname, _, _, ⟨hpasses, rfl, rfl⟩, hlinks, deviceMonitor_eq_ok.mpr h⟩

/-! ## Which failures get through -/

theorem optional_succeeded_iff {ro : Option Outcome} (h : ∀ o ∈ ro, o.ok = true) :
    (∀ o ∈ ro.toList, o.Succeeded) ↔ ¬ ∃ o ∈ ro, o.Short := by
  cases ro with
  | none => simp
  | some o =>
    have hok := h o rfl
    simp [Outcome.succeeded_iff_of_ok hok]

theorem UpdateRun.succeeded_iff {r : UpdateRun σ} (hdeleteExt : r.deleteExt.requested = 0)
    (hdeleteGroups : r.deleteGroups.requested = 0) (h : r.Passes) :
    (∀ o ∈ r.outcomes, o.Succeeded) ↔ ¬ r.Misses ∧ r.groups.Succeeded := by
  obtain ⟨h₁, h₂, h₃, h₄, h₅⟩ := h
  -- a deletion asks for no number of rows, so its status is all there is to it
  have hext : r.deleteExt.Succeeded := ⟨h₂, hdeleteExt ▸ Nat.zero_le _⟩
  have hgroups : r.deleteGroups.Succeeded := ⟨h₅, hdeleteGroups ▸ Nat.zero_le _⟩
  simp only [UpdateRun.outcomes, UpdateRun.Misses, List.mem_append, List.mem_cons,
    List.not_mem_nil, or_false, or_imp, forall_and, forall_eq, not_or]
  rw [Outcome.succeeded_iff_of_tolerated h₁, Outcome.succeeded_iff_of_ok h₃,
    optional_succeeded_iff h₄]
  simp only [hext, hgroups, true_and, and_assoc]

theorem InsertRun.succeeded_iff {r : InsertRun σ} (h : r.Passes) :
    (∀ o ∈ r.outcomes, o.Succeeded) ↔ ¬ r.Misses := by
  obtain ⟨h₁, h₂, h₃, h₄⟩ := h
  simp only [InsertRun.outcomes, InsertRun.Misses, List.mem_append, List.mem_cons,
    List.not_mem_nil, or_false, or_imp, forall_and, forall_eq, not_or]
  rw [Outcome.succeeded_iff_of_ok h₁, Outcome.succeeded_iff_of_ok h₂, optional_succeeded_iff h₃,
    Outcome.succeeded_iff_of_tolerated h₄]
  simp only [and_assoc]

theorem MonitorRun.succeeded_iff {monitor : Option (MonitorRun σ)}
    (h : MonitorRun.Passes monitor) :
    (∀ o ∈ MonitorRun.outcomes monitor, o.Succeeded) ↔ ¬ MonitorRun.Misses monitor := by
  cases monitor with
  | none => simp [MonitorRun.outcomes, MonitorRun.Misses]
  | some m =>
    obtain ⟨h₁, h₂⟩ := h m rfl
    simp [MonitorRun.outcomes, MonitorRun.Misses, Outcome.succeeded_iff_of_ok h₁,
      Outcome.succeeded_iff_of_ok h₂]

/-- An update that reports every failure to commit is all or nothing up to the failures that it
lets pass. -/
theorem allOrNothing_update_iff {body : Except UpdateResult (σ × String)} {outcomes : List Outcome}
    {final : σ} {P M : Prop} (hbody : ∀ ret, body = .error ret → ret.1 ≠ 0)
    (hcommits : ∀ s', (∃ errmsg, body = .ok (s', errmsg)) ↔ P ∧ final = s')
    (hall : P → ((∀ o ∈ outcomes, o.Succeeded) ↔ ¬ M)) :
    AllOrNothing (∃ r, body = .ok r) ((committed s body).2.1 = 0) outcomes s final
        (committed s body).1 ↔ ¬ (P ∧ M) := by
  cases hcase : body with
  -- an update that is not committed leaves the store and says so
  | error ret =>
    have hP : ¬ P := by
      intro hP
      obtain ⟨errmsg, h⟩ := (hcommits final).mpr ⟨hP, rfl⟩
      rw [hcase] at h
      cases h
    have hret := hbody ret hcase
    simp [AllOrNothing, committed, hret, hP]
  | ok r =>
    obtain ⟨hP, hfinal⟩ := (hcommits r.1).mp ⟨r.2, hcase⟩
    simp [AllOrNothing, committed, hfinal, hP, hall hP]

/-- An insertion may also report success without a commit, when `U` holds. -/
theorem allOrNothing_insert_iff {body : Except DbReply (σ × DbReply)} {outcomes : List Outcome}
    {final : σ} {P M U : Prop} (stored : DbReply)
    (hbody : (∃ reply, body = .error reply ∧ reply.status ≠ 0) ↔ U)
    (hcommits : ∀ s' reply, body = .ok (s', reply) ↔ P ∧ final = s' ∧ stored = reply)
    (hstored : P → stored.status ≠ 0) (hall : P → ((∀ o ∈ outcomes, o.Succeeded) ↔ ¬ M)) :
    AllOrNothing (∃ r, body = .ok r) ((inserted s body).2.status ≠ 0) outcomes s final
        (inserted s body).1 ↔ ¬ (P ∧ M) ∧ ¬ U := by
  rw [← hbody]
  cases hcase : body with
  | error reply =>
    have hP : ¬ P := fun hP ↦ by
      have h := (hcommits final stored).mpr ⟨hP, rfl, rfl⟩
      rw [hcase] at h
      cases h
    simp [AllOrNothing, inserted, hP]
  | ok r =>
    obtain ⟨hP, hfinal, hreply⟩ := (hcommits r.1 r.2).mp hcase
    have hstatus := hstored hP
    rw [hreply] at hstatus
    simp [AllOrNothing, inserted, hfinal, hP, hstatus, hall hP]

theorem insertDcRoomRowRackGroupBody_error {reply : DbReply}
    (h : insertDcRoomRowRackGroupBody db tools s a = .error reply) : reply.status = 0 := by
  simp only [insertDcRoomRowRackGroupBody, bind_eq_error, require_eq_error, Prod.exists] at h
  rcases h with ⟨-, rfl⟩ | ⟨-, -, ⟨-, rfl⟩ | ⟨-, -, h | ⟨s₁, reply₁, -, h⟩⟩⟩
  · rfl
  · rfl
  · exact insertElement_error h
  · -- only datacenters and racks have a monitoring part
    split at h
    · simp only [bind_eq_error, pure_ne_error, and_false, exists_false, or_false] at h
      exact insertMonitor_error h
    · exact absurd h (by simp)

/-- What the library answered to the insertion of a device is passed on as a success although
nothing was committed. -/
def Unreported (db : AssetsDb σ) (q : Requested) (s : σ) (a : AssetWrite) : Prop :=
  let links := deviceLinks db q s a
  db.extnameToAssetId s a.elementName = -1 ∧ (deviceInsertRun db q s a).Passes ∧
    (links.2.affectedRows ≠ a.links.length ∧ links.2.status ≠ 0 ∨
      links.2.affectedRows = a.links.length ∧
        ∃ reply, db.selectMonitorDeviceTypeId links.1 "not_classified" = .error reply ∧
          reply.errsubtype ≠ .notFound ∧ reply.status ≠ 0)

theorem deviceMonitor_unreported_iff {select : Except DbReply Nat} {elementName : String}
    {reply₁ : DbReply} :
    (∃ reply : DbReply, (match select with
      | .ok item => do
          let s ← insertMonitor db tools s item elementName elementId
          return (s, returned tools reply₁)
      | .error reply => do
          require (reply.errsubtype = ErrNo.notFound) (returned tools reply)
          return (s, returned tools reply₁) : Except DbReply (σ × DbReply)) = .error reply ∧
        reply.status ≠ 0) ↔
      ∃ reply, select = .error reply ∧ reply.errsubtype ≠ .notFound ∧ reply.status ≠ 0 := by
  cases select with
  -- a write that fails is answered with 0, so it is reported
  | ok item =>
    simp only [bind_eq_error, pure_ne_error, and_false, exists_false, or_false, reduceCtorEq,
      false_and, iff_false]
    rintro ⟨reply, h, hstatus⟩
    exact hstatus (insertMonitor_error h)
  | error reply₂ =>
    simp only [bind_eq_error, require_eq_error, pure_ne_error, and_false, exists_false, or_false,
      Except.error.injEq]
    constructor
    · rintro ⟨reply, ⟨hfound, hreply⟩, hstatus⟩
      subst hreply
      exact ⟨reply₂, rfl, hfound, hstatus⟩
    · rintro ⟨reply, hreply, hfound, hstatus⟩
      subst hreply
      exact ⟨_, ⟨hfound, rfl⟩, hstatus⟩

theorem insertDeviceBody_unreported_iff :
    (∃ reply, insertDeviceBody db tools s a = .error reply ∧ reply.status ≠ 0) ↔
      Unreported db q s a := by
  simp only [insertDeviceBody, bind_eq_error, require_eq_error, require_eq_ok, Prod.exists,
    insertElement_eq_ok (q := q), List.length_map]
  constructor
  · rintro ⟨reply, h, hstatus⟩
    rcases h with ⟨-, rfl⟩ | ⟨-, hname, h | ⟨s₁, reply₁, ⟨hpasses, hs₁, hreply₁⟩, h⟩⟩
    · -- the name is taken, which is answered with status 0
      exact absurd rfl hstatus
    · exact absurd (insertElement_error h) hstatus
    · subst hs₁ hreply₁
      refine ⟨hname, hpasses, ?_⟩
      rcases h with ⟨hlinks, rfl⟩ | ⟨-, hlinks, h⟩
      · exact Or.inl ⟨hlinks, hstatus⟩
      · exact Or.inr ⟨hlinks, deviceMonitor_unreported_iff.mp ⟨reply, h, hstatus⟩⟩
  · rintro ⟨hname, hpasses, h⟩
    rcases h with ⟨hlinks, hstatus⟩ | ⟨hlinks, h⟩
    · exact ⟨_, Or.inr ⟨(), hname, Or.inr ⟨_, _, ⟨hpasses, rfl, rfl⟩, Or.inl ⟨hlinks, rfl⟩⟩⟩, hstatus⟩
    · obtain ⟨reply, h, hstatus⟩ := deviceMonitor_unreported_iff.mpr h
      exact ⟨reply, Or.inr ⟨(), hname, Or.inr ⟨_, _, ⟨hpasses, rfl, rfl⟩,
        Or.inr ⟨(), hlinks, h⟩⟩⟩, hstatus⟩

/-- Each of the four writes is all or nothing but for the failures that its tests let pass. -/
theorem writes_allOrNothing_iff (db : AssetsDb σ) (tools : Tools) (q : Requested) (s : σ)
    (elementId : Nat) (a : AssetWrite) :
    (let run := dcUpdateRun db q s elementId a
     AllOrNothing (∃ r, updateDcRoomRowRackGroupBody db tools s elementId a = .ok r)
         ((updateDcRoomRowRackGroup db tools s elementId a).2.1 = 0) run.outcomes s run.store
         (updateDcRoomRowRackGroup db tools s elementId a).1 ↔
       ¬ ((a.status ≠ "nonactive" ∧ run.Passes ∧ run.groups.Tolerated) ∧
         (run.Misses ∨ run.groups.Short ∨ run.groups.Refused))) ∧
    (let run := deviceUpdateRun db q s elementId a
     let links := linksRun db run.store elementId a.links
     AllOrNothing (∃ r, updateDeviceBody db tools s elementId a = .ok r)
         ((updateDevice db tools s elementId a).2.1 = 0)
         (run.outcomes ++ [links.deleteLinks, links.links]) s links.store
         (updateDevice db tools s elementId a).1 ↔
       ¬ ((¬ (elementId = 1 ∧ a.status = "nonactive") ∧ run.Passes ∧
           run.groups.affected = run.groups.requested ∧ links.deleteLinks.ok = true ∧
           links.links.affected = links.links.requested) ∧
         (run.Misses ∨ run.groups.Refused ∨ links.links.Refused))) ∧
    (let run := dcInsertRun db q s a
     let monitor := dcMonitorRun db q s a
     AllOrNothing (∃ r, insertDcRoomRowRackGroupBody db tools s a = .ok r)
         ((insertDcRoomRowRackGroup db tools s a).2.status ≠ 0)
         (run.outcomes ++ MonitorRun.outcomes monitor) s (MonitorRun.final monitor run.store)
         (insertDcRoomRowRackGroup db tools s a).1 ↔
       ¬ ((db.extnameToAssetId s a.elementName = -1 ∧ a.status ≠ "nonactive" ∧ run.Passes ∧
           MonitorRun.Passes monitor) ∧ (run.Misses ∨ MonitorRun.Misses monitor))) ∧
    (let run := deviceInsertRun db q s a
     let links := deviceLinks db q s a
     let monitor := deviceMonitorRun db q s a
     AllOrNothing (∃ r, insertDeviceBody db tools s a = .ok r)
         ((insertDevice db tools s a).2.status ≠ 0)
         (run.outcomes ++ [links.2.outcome a.links.length] ++ MonitorRun.outcomes monitor) s
         (MonitorRun.final monitor links.1) (insertDevice db tools s a).1 ↔
       ¬ ((db.extnameToAssetId s a.elementName = -1 ∧ run.Passes ∧
           links.2.affectedRows = a.links.length ∧
           Answered (db.selectMonitorDeviceTypeId links.1 "not_classified") ∧
           MonitorRun.Passes monitor) ∧
         (run.Misses ∨ (links.2.outcome a.links.length).Refused ∨ MonitorRun.Misses monitor)) ∧
       ¬ Unreported db q s a) := by
  refine ⟨?updateDc, ?updateDevice, ?insertDc, ?insertDevice⟩
  case updateDc =>
    apply allOrNothing_update_iff (fun ret ↦ updateDcRoomRowRackGroupBody_error)
    · intro s'
      rw [updateDcRoomRowRackGroupBody_eq_ok (q := q)]
      simp only [and_assoc]
    · intro ⟨_, hpasses, hgroups⟩
      rw [UpdateRun.succeeded_iff rfl rfl hpasses, Outcome.succeeded_iff_of_tolerated hgroups,
        not_or, not_or]
  case updateDevice =>
    apply allOrNothing_update_iff (fun ret ↦ updateDeviceBody_error)
    · intro s'
      rw [updateDeviceBody_eq_ok (q := q)]
      simp only [and_assoc]
    · intro ⟨_, hpasses, hgroups, hdelete, hlinks⟩
      -- the deletion of the links has been tested already
      have hdeleted : (linksRun db (deviceUpdateRun db q s elementId a).store elementId
          a.links).deleteLinks.Succeeded := ⟨hdelete, Nat.zero_le _⟩
      simp only [List.forall_mem_append, List.forall_mem_cons, List.not_mem_nil, false_implies,
        implies_true, and_true, hdeleted, true_and]
      rw [UpdateRun.succeeded_iff rfl rfl hpasses, Outcome.succeeded_iff_of_affected hgroups,
        Outcome.succeeded_iff_of_affected hlinks, not_or, not_or, and_assoc]
  case insertDc =>
    -- a failure is always reported
    apply Iff.trans (allOrNothing_insert_iff (U := False)
      (returned tools (dcInsertRun db q s a).reply) ?_ ?_ ?_ ?_) (and_iff_left not_false)
    · rw [iff_false]
      intro ⟨reply, hreply, hstatus⟩
      exact hstatus (insertDcRoomRowRackGroupBody_error hreply)
    · intro s' reply
      rw [insertDcRoomRowRackGroupBody_eq_ok (q := q)]
      simp only [and_assoc]
    · intro ⟨_, _, hpasses, _⟩
      exact outcome_ok.mp hpasses.1
    · intro ⟨_, _, hpasses, hmonitor⟩
      rw [List.forall_mem_append, InsertRun.succeeded_iff hpasses,
        MonitorRun.succeeded_iff hmonitor, not_or]
  case insertDevice =>
    apply allOrNothing_insert_iff (returned tools (deviceInsertRun db q s a).reply)
      insertDeviceBody_unreported_iff
    · intro s' reply
      rw [insertDeviceBody_eq_ok (q := q)]
      simp only [and_assoc]
    · intro ⟨_, hpasses, _⟩
      exact outcome_ok.mp hpasses.1
    · intro ⟨_, hpasses, hlinks, _, hmonitor⟩
      have hlinks : (DbReply.outcome _ _).Succeeded ↔ _ := Outcome.succeeded_iff_of_affected hlinks
      simp only [List.forall_mem_append, List.forall_mem_cons, List.not_mem_nil, false_implies,
        implies_true, and_true]
      rw [InsertRun.succeeded_iff hpasses, hlinks, MonitorRun.succeeded_iff hmonitor, not_or,
        not_or, and_assoc]

end

/-! ## A room that is not there -/

/-- The update of an element tells in its number of rows only whether the element is there. -/
def countedRows : AssetsDb Tables :=
  { tablesAssets with
    updateAssetElement := fun t id c ↦
      (t.updateElement id c, 0, t.elements.countP fun e ↦ e.id = id) }

def roomUpdate : AssetWrite where
  elementName := "room-3"
  parentId := 0
  extattributes := []
  status := "active"
  priority := 1
  groups := []
  assetTag := ""
  extattributesRO := none

/-- A room that is not there is updated with success. -/
theorem room_not_updated :
    (updateDcRoomRowRackGroup countedRows plainTools roomTables 3 roomUpdate).2 = (0, "") ∧
      (dcUpdateRun countedRows ⟨0, 0, 0, 0, 0⟩ roomTables 3 roomUpdate).element = ⟨true, 0, 1⟩ ∧
      ¬ AllOrNothing
        (∃ r, updateDcRoomRowRackGroupBody countedRows plainTools roomTables 3 roomUpdate = .ok r)
        ((updateDcRoomRowRackGroup countedRows plainTools roomTables 3 roomUpdate).2.1 = 0)
        (dcUpdateRun countedRows ⟨0, 0, 0, 0, 0⟩ roomTables 3 roomUpdate).outcomes roomTables
        (dcUpdateRun countedRows ⟨0, 0, 0, 0, 0⟩ roomTables 3 roomUpdate).store
        (updateDcRoomRowRackGroup countedRows plainTools roomTables 3 roomUpdate).1 := by
  refine ⟨rfl, rfl, ?_⟩
  intro h
  rcases h with ⟨-, -, -, hall⟩ | ⟨hfails, -⟩
  · have helement := (hall ⟨true, 0, 1⟩ (by decide)).2
    exact absurd helement (by decide)
  · exact hfails rfl

end FtyRest.Db
