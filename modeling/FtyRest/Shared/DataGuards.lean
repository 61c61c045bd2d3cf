import FtyRest.Db.Delete
import FtyRest.Shared.Data

/-!
# What no deletion takes away

The runs of single and batch deletions, down to the functions of `db/asset_general.cc`: the
default rack controller stays, and a datacenter.
-/

namespace FtyRest.Shared

open Db Checks Relation

/-- The columns of an element that no deletion and no licensing writes. -/
structure ElementKind where
  name : String
  typeId : Nat
deriving DecidableEq, Repr

def BasicElement.kind (basic : BasicElement) : ElementKind where
  name := basic.name
  typeId := basic.typeId

/-- What `delete_item` reads. -/
structure Reads (σ : Type) where
  selectAssetElementWebById : σ → Nat → Except ErrNo BasicElement
  countKeytag : σ → String → String → Nat
  selectAssets : σ → List AssetRow
  selectLinkDests : σ → Nat → Except String (List Nat)
  getJsonAsset : σ → Nat → Except String String

section

variable {σ : Type} (reads : Reads σ) (db : DeleteDb σ) (act : AssetActivator σ) (tools : Tools)

/-- `delete_item` over the deletions of `db/asset_general.cc`. -/
def assetDb (overridden : Bool) : AssetDb (World σ) where
  selectAssetElementWebById w := reads.selectAssetElementWebById w.store
  countKeytag w := reads.countKeytag w.store
  selectAssets w := reads.selectAssets w.store
  selectLinkDests w := reads.selectLinkDests w.store
  getJsonAsset w := reads.getJsonAsset w.store
  deleteDcRoomRowRack w id :=
    let (s, reply) := deleteDcRoomRowRack db tools overridden w.store id
    ({ w with store := s }, .ok reply)
  deleteGroup w id :=
    let (s, reply) := deleteGroup db tools w.store id
    ({ w with store := s }, .ok reply)
  deleteDevice w id assetJson :=
    let (w, reply) := deleteDevice db tools act w id assetJson
    (w, .ok reply)

/-- A request to delete one asset or a list of them; a batch that does not return is none. -/
inductive DeleteStep {τ : Type} (db : AssetDb τ) (std : StdSort) (w : τ) : τ → Prop
  | single (id : Nat) : DeleteStep db std w (deleteItem db w id).1
  | batch (ids : List Nat) {run : BatchRun τ} (h : deleteItems db std w ids = some run) :
      DeleteStep db std w run.world

/-- What is known of the database: `element` is the name and the type of every element, and a
deletion of one element takes no other one.  The licensing writes the status of an asset, and
leaves its name and its type alone. -/
structure ElementLaws (element : σ → Nat → Option ElementKind) : Prop where
  select : ∀ s id basic, reads.selectAssetElementWebById s id = .ok basic →
    element s id = some basic.kind
  datacenters : ∀ s id, db.numDatacentersWithout s id ≠ 0 →
    ∃ x kind, x ≠ id ∧ element s x = some kind ∧ kind.typeId = AssetType.datacenter
  groups : ∀ s id, element (db.deleteAssetElementFromAssetGroups s id).1 = element s
  members : ∀ s id, element (db.deleteAssetGroupLinks s id).1 = element s
  links : ∀ s id, element (db.deleteAssetLinksTo s id).1 = element s
  monitors : ∀ s id, element (db.deleteMonitorAssetRelationByA s id).1 = element s
  others : ∀ s id x, x ≠ id → element (db.deleteAssetElement s id).1 x = element s x
  own : ∀ s id, element (db.deleteAssetElement s id).1 id = none ∨
    element (db.deleteAssetElement s id).1 id = element s id
  deactivate : ∀ w json, element (act.deactivate w json).1.store = element w.store

end

/-! ## One deletion -/

section

variable {σ : Type} {element : σ → Nat → Option ElementKind}

/-- Nothing but `id` may be gone. -/
structure Loses (element : σ → Nat → Option ElementKind) (id : Nat) (s s' : σ) : Prop where
  others : ∀ x, x ≠ id → element s' x = element s x
  own : element s' id = none ∨ element s' id = element s id

theorem Loses.refl (id : Nat) (s : σ) : Loses element id s s :=
  ⟨fun _ _ ↦ rfl, Or.inr rfl⟩

/-- An element is as it was before, or gone. -/
def Shrinks (element : σ → Nat → Option ElementKind) (s s' : σ) : Prop :=
  ∀ x, element s' x = none ∨ element s' x = element s x

theorem Loses.shrinks {id : Nat} {s s' : σ} (h : Loses element id s s') :
    Shrinks element s s' := by
  intro x
  by_cases hx : x = id
  · subst hx
    exact h.own
  · exact Or.inr (h.others x hx)

theorem Shrinks.trans {s s' s'' : σ} (h : Shrinks element s s') (h' : Shrinks element s' s'') :
    Shrinks element s s'' := by
  intro x
  rcases h' x with hgone | hsame
  · exact Or.inl hgone
  · rw [hsame]
    exact h x

/-- The default rack controller is there, and a datacenter. -/
structure Guarded (element : σ → Nat → Option ElementKind) (s : σ) : Prop where
  controller : ∃ x kind, element s x = some kind ∧ kind.name = rc0Iname
  datacenter : ∃ x kind, element s x = some kind ∧ kind.typeId = AssetType.datacenter

/-- The guards of one deletion: what is deleted is not the default rack controller, and another
datacenter is left if it is a datacenter itself. -/
theorem Guarded.loses {id : Nat} {s s' : σ} (h : Guarded element s) (hloses : Loses element id s s')
    (hname : ∀ kind, element s id = some kind → kind.name ≠ rc0Iname)
    (hother : s' = s ∨ (∃ x kind, x ≠ id ∧ element s x = some kind ∧
      kind.typeId = AssetType.datacenter) ∨
      ∀ kind, element s id = some kind → kind.typeId ≠ AssetType.datacenter) :
    Guarded element s' := by
  constructor
  · obtain ⟨x, kind, hx, hrc⟩ := h.controller
    have hne : x ≠ id := by
      rintro rfl
      exact hname kind hx hrc
    exact ⟨x, kind, by rw [hloses.others x hne, hx], hrc⟩
  · rcases hother with rfl | ⟨x, kind, hne, hx, hdc⟩ | htype
    · exact h.datacenter
    · exact ⟨x, kind, by rw [hloses.others x hne, hx], hdc⟩
    · obtain ⟨x, kind, hx, hdc⟩ := h.datacenter
      have hne : x ≠ id := by
        rintro rfl
        exact htype kind hx hdc
      exact ⟨x, kind, by rw [hloses.others x hne, hx], hdc⟩

variable {reads : Reads σ} {db : DeleteDb σ} {act : AssetActivator σ} {tools : Tools}

theorem ElementLaws.loses (hlaws : ElementLaws reads db act element) {s s' : σ} (id : Nat)
    (h : element s' = element s) : Loses element id s (db.deleteAssetElement s' id).1 := by
  constructor
  · intro x hx
    rw [hlaws.others s' id x hx, h]
  · rw [← h]
    exact hlaws.own s' id

theorem deleteDcRoomRowRack_loses (hlaws : ElementLaws reads db act element) (tools : Tools)
    (s : σ) (id : Nat) :
    Loses element id s (deleteDcRoomRowRack db tools false s id).1 ∧
      ((deleteDcRoomRowRack db tools false s id).1 = s ∨
        ∃ x kind, x ≠ id ∧ element s x = some kind ∧
          kind.typeId = AssetType.datacenter) := by
  unfold deleteDcRoomRowRack
  cases hbody : deleteDcRoomRowRackBody db tools false s id with
  | error reply => exact ⟨Loses.refl id s, Or.inl rfl⟩
  | ok r =>
    obtain ⟨s', reply⟩ := r
    simp only [deleteDcRoomRowRackBody, bind_eq_ok, pure_eq_ok, require_eq_ok, exists_const,
      Prod.mk.injEq, Bool.false_eq_true, false_or] at hbody
    obtain ⟨hcount, -, -, -, -, hs', -⟩ := hbody
    have hsame : element (db.deleteMonitorAssetRelationByA
        (db.deleteAssetElementFromAssetGroups s id).1 id).1 = element s := by
      rw [hlaws.monitors, hlaws.groups]
    subst hs'
    exact ⟨hlaws.loses id hsame, Or.inr (hlaws.datacenters s id hcount)⟩

theorem deleteGroup_loses (hlaws : ElementLaws reads db act element) (tools : Tools) (s : σ) (id : Nat) :
    Loses element id s (deleteGroup db tools s id).1 := by
  unfold deleteGroup
  cases hbody : deleteGroupBody db tools s id with
  | error reply => exact Loses.refl id s
  | ok r =>
    obtain ⟨s', reply⟩ := r
    simp only [deleteGroupBody, bind_eq_ok, pure_eq_ok, require_eq_ok, exists_const,
      Prod.mk.injEq] at hbody
    obtain ⟨-, -, hs', -⟩ := hbody
    subst hs'
    exact hlaws.loses id (hlaws.members s id)

theorem deleteDevice_loses (hlaws : ElementLaws reads db act element) (tools : Tools)
    (w : World σ) (id : Nat) (assetJson : String) :
    Loses element id w.store (deleteDevice db tools act w id assetJson).1.store := by
  unfold deleteDevice
  cases hbody : deleteDeviceBody db tools w.store id with
  | error reply => exact Loses.refl id w.store
  | ok r =>
    obtain ⟨s', reply⟩ := r
    obtain ⟨-, hs', -⟩ := deleteDeviceBody_ok hbody
    have hsame : element (db.deleteMonitorAssetRelationByA (db.deleteAssetLinksTo
        (db.deleteAssetElementFromAssetGroups w.store id).1 id).1 id).1 = element w.store := by
      rw [hlaws.monitors, hlaws.links, hlaws.groups]
    have hloses : Loses element id w.store s' := hs' ▸ hlaws.loses id hsame
    dsimp only
    split
    · -- the licensing comes after the commit, and leaves the tables alone
      have hkeep := hlaws.deactivate { w with store := s' } assetJson
      cases hcall : act.deactivate { w with store := s' } assetJson with
      | mk w' answer =>
        rw [hcall] at hkeep
        have hloses' : Loses element id w.store w'.store :=
          ⟨fun x hx ↦ hkeep ▸ hloses.others x hx, hkeep ▸ hloses.own⟩
        cases answer with
        | error what => exact hloses'
        | ok _ => exact hloses'
    · exact hloses

/-! ## The requests -/

/-- What is handed to the deletions is not the default rack controller, and has the type that is
told. -/
theorem persistDelete_guarded (hlaws : ElementLaws reads db act element) (tools : Tools) {w : World σ}
    (h : Guarded element w.store) {id typeId : Nat} (status : String)
    (hel : ∀ kind, element w.store id = some kind →
      kind.name ≠ rc0Iname ∧ kind.typeId = typeId) :
    let w' := (persistDelete (assetDb reads db act tools false) w id typeId status).1
    Guarded element w'.store ∧ Shrinks element w.store w'.store := by
  have hname : ∀ kind, element w.store id = some kind → kind.name ≠ rc0Iname :=
    fun kind hkind ↦ (hel kind hkind).1
  -- only the deletion of a datacenter has to look for another one
  have hother {ty : Nat} (htype : typeId = ty) (hne : ty ≠ AssetType.datacenter) :
      ∀ kind, element w.store id = some kind → kind.typeId ≠ AssetType.datacenter := by
    intro kind hkind
    rwa [(hel kind hkind).2, htype]
  unfold persistDelete
  -- the types of the source, one after the other; an unknown type deletes nothing
  split
  · obtain ⟨hloses, hdc⟩ := deleteDcRoomRowRack_loses hlaws tools w.store id
    exact ⟨h.loses hloses hname (hdc.imp_right Or.inl), hloses.shrinks⟩
  · split
    · rename_i htype
      have hloses := deleteGroup_loses hlaws tools w.store id
      exact ⟨h.loses hloses hname (Or.inr (Or.inr (hother htype (by decide)))), hloses.shrinks⟩
    · split
      · rename_i htype
        have hdevice (assetJson : String) :
            Guarded element (deleteDevice db tools act w id assetJson).1.store ∧
              Shrinks element w.store (deleteDevice db tools act w id assetJson).1.store := by
          have hloses := deleteDevice_loses hlaws tools w id assetJson
          exact ⟨h.loses hloses hname (Or.inr (Or.inr (hother htype (by decide)))),
            hloses.shrinks⟩
        split
        · split
          · exact ⟨h, (Loses.refl id w.store).shrinks⟩
          · exact hdevice _
        · exact hdevice ""
      · exact ⟨h, (Loses.refl id w.store).shrinks⟩

theorem deleteItem_guarded (hlaws : ElementLaws reads db act element) {w : World σ}
    (h : Guarded element w.store) (id : Nat) :
    Guarded element (deleteItem (assetDb reads db act tools false) w id).1.store := by
  cases hsel : reads.selectAssetElementWebById w.store id with
  | error e =>
    have hsel : (assetDb reads db act tools false).selectAssetElementWebById w id = .error e := hsel
    simp only [deleteItem, hsel]
    exact h
  | ok basic =>
    have helement := hlaws.select w.store id basic hsel
    have hsel : (assetDb reads db act tools false).selectAssetElementWebById w id = .ok basic :=
      hsel
    rw [deleteItem_world _ hsel]
    split
    · exact h
    · rename_i hnot
      refine (persistDelete_guarded hlaws tools h basic.status ?_).1
      intro kind hkind
      obtain rfl : basic.kind = kind := Option.some.inj (helement.symm.trans hkind)
      exact ⟨fun hrc ↦ hnot (Or.inl hrc.symm), rfl⟩

/-- What the work list tells of an item was read from the store, and is not the default rack
controller. -/
def FromStore (element : σ → Nat → Option ElementKind) (s : σ) (item : ElementInfo) : Prop :=
  ∃ kind, element s item.el.id = some kind ∧ kind.typeId = item.el.typeId ∧
    kind.name ≠ rc0Iname

theorem request_toDel {τ : Type} (db : AssetDb τ) (w : τ) (ids : List Nat)
    (toDel : List ElementInfo) (info : ElementInfo) :
    ∀ item ∈ (request db w ids toDel info).1,
      item ∈ toDel ∨ item.el = info.el ∧ info.el.name ≠ rc0Iname := by
  have hold : ∀ item ∈ toDel, item ∈ toDel ∨ item.el = info.el ∧ info.el.name ≠ rc0Iname :=
    fun item hitem ↦ Or.inl hitem
  unfold request
  dsimp only
  split
  · exact hold
  · split
    · exact hold
    · rename_i links _
      -- only this check adds an element, and not the rack controller
      have hadd : ∀ toDel', checkAndAddInfo toDel { info with links } = .ok toDel' →
          ∀ item ∈ toDel', item ∈ toDel ∨ item.el = info.el ∧ info.el.name ≠ rc0Iname := by
        intro toDel' hadd item hitem
        unfold checkAndAddInfo at hadd
        split at hadd
        · cases hadd
          exact Or.inl hitem
        · split at hadd
          · cases hadd
          · rename_i hname
            cases hadd
            rcases List.mem_append.mp hitem with hitem | hitem
            · exact Or.inl hitem
            · obtain rfl := List.mem_singleton.mp hitem
              exact Or.inr ⟨rfl, Ne.symm hname⟩
      cases hcheck : checkAndAddInfo toDel { info with links } with
      | error e => exact hold
      | ok toDel' =>
        dsimp only
        split
        · exact hadd toDel' hcheck
        · split
          · exact hadd toDel' hcheck
          · exact hadd toDel' hcheck

theorem collect_fromStore (hlaws : ElementLaws reads db act element) {w : World σ}
    {ids : List Nat} {id : Nat} {work work' : Work}
    (hwork : ∀ item ∈ work.toDel, FromStore element w.store item)
    (h : collect (assetDb reads db act tools false) w ids work id = some work') :
    ∀ item ∈ work'.toDel, FromStore element w.store item := by
  unfold collect at h
  cases hsel : (assetDb reads db act tools false).selectAssetElementWebById w id with
  | error e =>
    rw [hsel] at h
    cases h
    exact hwork
  | ok basic =>
    rw [hsel] at h
    dsimp only at h
    have helement := hlaws.select w.store id basic hsel
    -- what is new in the list is the asset that was just selected
    have hnew := request_toDel (assetDb reads db act tools false) w ids work.toDel
      { el := basic.element id }
    have hfrom : ∀ item ∈ (request (assetDb reads db act tools false) w ids work.toDel
        { el := basic.element id }).1, FromStore element w.store item := by
      intro item hitem
      rcases hnew item hitem with hitem | ⟨hel, hname⟩
      · exact hwork item hitem
      · refine ⟨basic.kind, ?_, ?_, hname⟩
        · rw [hel]
          exact helement
        · rw [hel]
          rfl
    rcases hrequest : request (assetDb reads db act tools false) w ids work.toDel
      { el := basic.element id } with ⟨toDel, (_ | e) | _⟩
    · rw [hrequest] at h
      cases h
    · rw [hrequest] at h hfrom
      cases h
      exact hfrom
    · rw [hrequest] at h hfrom
      cases h
      exact hfrom

theorem foldlM_fromStore (hlaws : ElementLaws reads db act element) {w : World σ}
    {ids xs : List Nat} {work work' : Work}
    (hwork : ∀ item ∈ work.toDel, FromStore element w.store item)
    (h : xs.foldlM (collect (assetDb reads db act tools false) w ids) work = some work') :
    ∀ item ∈ work'.toDel, FromStore element w.store item := by
  induction xs generalizing work with
  | nil =>
    cases h
    exact hwork
  | cons x xs ih =>
    rw [List.foldlM_cons] at h
    obtain ⟨next, hnext, h⟩ := Option.bind_eq_some_iff.mp h
    exact ih (collect_fromStore hlaws hwork hnext) h

/-- One round of the second loop. -/
theorem deleteNext_guarded (hlaws : ElementLaws reads db act element) (tools : Tools) {s : σ}
    {run : BatchRun (World σ)} {item : ElementInfo} (hitem : FromStore element s item)
    (hshrinks : Shrinks element s run.world.store) (h : Guarded element run.world.store) :
    let run' := deleteNext (assetDb reads db act tools false) run item
    Guarded element run'.world.store ∧ Shrinks element s run'.world.store := by
  unfold deleteNext
  split
  · have hworld : Guarded element
        (deleteAsset (assetDb reads db act tools false) run.world item).1.store ∧
        Shrinks element s
          (deleteAsset (assetDb reads db act tools false) run.world item).1.store := by
      rw [deleteAsset_world]
      split
      · exact ⟨h, hshrinks⟩
      · -- the item is what it was when the batch began, unless it is gone
        obtain ⟨kind, hkind, htype, hname⟩ := hitem
        have hel : ∀ kind', element run.world.store item.el.id = some kind' →
            kind'.name ≠ rc0Iname ∧ kind'.typeId = item.el.typeId := by
          intro kind' hkind'
          rcases hshrinks item.el.id with hgone | hsame
          · rw [hgone] at hkind'
            cases hkind'
          · rw [hsame, hkind] at hkind'
            cases hkind'
            exact ⟨hname, htype⟩
        obtain ⟨hguarded, hless⟩ :=
          persistDelete_guarded hlaws tools h item.el.status hel
        exact ⟨hguarded, hshrinks.trans hless⟩
    rcases hdelete : deleteAsset (assetDb reads db act tools false) run.world item with
      ⟨world, e | reply, calls⟩
    · rwa [hdelete] at hworld
    · rwa [hdelete] at hworld
  · exact ⟨h, hshrinks⟩

theorem deleteItems_guarded (hlaws : ElementLaws reads db act element) {std : StdSort}
    {w : World σ} (h : Guarded element w.store) {ids : List Nat} {run : BatchRun (World σ)}
    (hrun : deleteItems (assetDb reads db act tools false) std w ids = some run) :
    Guarded element run.world.store := by
  obtain ⟨work, hwork, heq⟩ := Option.bind_eq_some_iff.mp hrun
  cases heq
  have hfrom := foldlM_fromStore hlaws (by simp) hwork
  have hperm := std.perm (before work.toDel) work.toDel
  suffices hloop : ∀ items : List ElementInfo, (∀ item ∈ items, FromStore element w.store item) →
      ∀ run : BatchRun (World σ), Guarded element run.world.store →
        Shrinks element w.store run.world.store → Guarded element
          (items.foldl (deleteNext (assetDb reads db act tools false)) run).world.store by
    apply hloop _ (fun item hitem ↦ hfrom item (hperm.mem_iff.mp hitem)) _ h
    exact (Loses.refl 0 w.store).shrinks
  intro items
  induction items with
  | nil => exact fun _ run h _ ↦ h
  | cons item items ih =>
    intro hitems run hguarded hshrinks
    obtain ⟨hguarded, hshrinks⟩ := deleteNext_guarded hlaws tools
      (hitems item List.mem_cons_self) hshrinks hguarded
    exact ih (fun item hitem ↦ hitems item (List.mem_cons_of_mem _ hitem)) _ hguarded hshrinks

/-- As long as the check of the last datacenter is not switched off, no requests to delete take the
default rack controller away, or all datacenters. -/
theorem controller_and_datacenter_stay (hlaws : ElementLaws reads db act element)
    (tools : Tools) (std : StdSort) {w w' : World σ}
    (hrun : ReflTransGen (DeleteStep (assetDb reads db act tools false) std) w w')
    (h : Guarded element w.store) : Guarded element w'.store := by
  induction hrun with
  | refl => exact h
  | tail _ hstep ih =>
    cases hstep with
    | single id => exact deleteItem_guarded hlaws ih id
    | batch ids hrun => exact deleteItems_guarded hlaws ih hrun

end

/-- A store of elements alone. -/
abbrev ElementTable := List (Nat × BasicElement)

def ElementTable.element (s : ElementTable) (x : Nat) : Option BasicElement :=
  (s.find? (·.1 = x)).map (·.2)

def ElementTable.kind (s : ElementTable) (x : Nat) : Option ElementKind :=
  (ElementTable.element s x).map (·.kind)

def deviceJson (id : Nat) : String :=
  "\x7b\"id\" : \"ups-" ++ toString id ++ "\"\x7d"

def elementReads : Reads ElementTable where
  selectAssetElementWebById s id :=
    match ElementTable.element s id with
    | some basic => .ok basic
    | none => .error .notFound
  countKeytag _ _ _ := 0
  selectAssets s := s.map fun p ↦ ⟨p.1, p.2.typeId, p.2.subtypeId, p.2.name, p.2.parentId⟩
  selectLinkDests _ _ := .ok []
  getJsonAsset _ id := .ok (deviceJson id)

def elementDb : DeleteDb ElementTable where
  numDatacentersWithout s id :=
    ((s.map (·.1)).filter fun x ↦ x ≠ id ∧
      (ElementTable.element s x).any (·.typeId = AssetType.datacenter)).length
  convertAssetToMonitor _ _ := 0
  deleteAssetElementFromAssetGroups s _ := (s, {})
  deleteAssetGroupLinks s _ := (s, {})
  deleteAssetLinksTo s _ := (s, {})
  deleteMonitorAssetRelationByA s _ := (s, {})
  deleteAssetElement s id := (s.filter (·.1 ≠ id), {})

/-- The status of the asset that a JSON names, in the table and in the licensing. -/
def licensed (w : World ElementTable) (assetJson status : String) : World ElementTable where
  store := w.store.map fun p ↦
    if deviceJson p.1 = assetJson then (p.1, { p.2 with status }) else p
  activation id := if deviceJson id = assetJson then status = "active" else w.activation id

def licensingActivator : AssetActivator ElementTable where
  activate w assetJson := (licensed w assetJson "active", .ok ())
  deactivate w assetJson := (licensed w assetJson "nonactive", .ok ())

theorem licensed_kind (w : World ElementTable) (assetJson status : String) :
    ElementTable.kind (licensed w assetJson status).store = ElementTable.kind w.store := by
  funext x
  simp only [ElementTable.kind, ElementTable.element, licensed, List.find?_map, Option.map_map]
  have hid : ((fun p : Nat × BasicElement ↦ decide (p.1 = x)) ∘ fun p ↦
      if deviceJson p.1 = assetJson then (p.1, { p.2 with status }) else p) =
        fun p ↦ decide (p.1 = x) := by
    funext p
    simp only [Function.comp_apply]
    split <;> rfl
  rw [hid]
  congr 1
  funext p
  simp only [Function.comp_apply]
  split <;> rfl

theorem elementDb_laws :
    ElementLaws elementReads elementDb licensingActivator ElementTable.kind where
  select s id basic h := by
    simp only [elementReads] at h
    split at h
    · rename_i found hfound
      cases h
      exact congrArg (Option.map _) hfound
    · cases h
  datacenters s id h := by
    obtain ⟨x, hx⟩ := List.exists_mem_of_length_pos (Nat.pos_of_ne_zero h)
    obtain ⟨-, hx⟩ := List.mem_filter.mp hx
    obtain ⟨hne, hdc⟩ := of_decide_eq_true hx
    obtain ⟨basic, hbasic, htype⟩ := Option.any_eq_true _ _ |>.mp hdc
    exact ⟨x, basic.kind, hne, congrArg (Option.map _) hbasic, of_decide_eq_true htype⟩
  groups _ _ := rfl
  members _ _ := rfl
  links _ _ := rfl
  monitors _ _ := rfl
  others s id x hx := by
    simp only [elementDb, ElementTable.kind, ElementTable.element]
    rw [List.find?_filter]
    congr 3
    funext p
    by_cases hp : p.1 = x
    · simp [hp, hx]
    · simp [hp]
  own s id := by
    left
    simp only [elementDb, ElementTable.kind, ElementTable.element, Option.map_eq_none_iff,
      List.find?_eq_none]
    intro p hp
    simpa using (List.mem_filter.mp hp).2
  deactivate w assetJson := licensed_kind w assetJson "nonactive"

/-- Two datacenters, one of which has the default rack controller, and a ups that is active. -/
def twoDatacenters : World ElementTable where
  store := [(1, ⟨AssetType.datacenter, 0, "datacenter-1", 0, "active"⟩),
    (2, ⟨AssetType.datacenter, 0, "datacenter-2", 0, "active"⟩),
    (3, ⟨AssetType.device, 0, rc0Iname, 2, "active"⟩),
    (4, ⟨AssetType.device, 0, "ups-4", 1, "active"⟩)]
  activation := fun _ ↦ true

/-- `delete_item` over it. -/
def plainElementDb : AssetDb (World ElementTable) :=
  assetDb elementReads elementDb licensingActivator plainTools false

/-- The ups, and the first datacenter, are gone. -/
def oneDatacenter : World ElementTable :=
  (deleteItem plainElementDb (deleteItem plainElementDb twoDatacenters 4).1 1).1

theorem deleteItems_oneDatacenter :
    (deleteItems plainElementDb inOrder oneDatacenter [3, 2]).isSome := by
  decide

/-- The ups is made inactive behind its deletion, a batch asks for everything else. -/
theorem controller_and_datacenter_stay_second :
    Guarded ElementTable.kind
      ((deleteItems plainElementDb inOrder oneDatacenter [3, 2]).get
        deleteItems_oneDatacenter).world.store :=
  controller_and_datacenter_stay elementDb_laws plainTools inOrder
    (.tail (.tail (.single (.single 4)) (.single 1))
      (.batch [3, 2] (Option.some_get deleteItems_oneDatacenter).symm))
    ⟨⟨3, _, rfl, rfl⟩, ⟨1, _, rfl, rfl⟩⟩

end FtyRest.Shared
