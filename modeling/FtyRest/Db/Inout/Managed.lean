import FtyRest.Db.Delete
import FtyRest.Db.Inout.CommitOnce
import FtyRest.Db.Inout.ExportBack

/-!
# Imports and deletions

The tables over any series of imports and deletions, and what the export prints of them after that.
-/

namespace FtyRest.Db

open Shared Checks

namespace Tables

variable (t : Tables)

/-- The members of a group leave it. -/
def deleteMembers (id : Nat) : Tables :=
  { t with groups := fun id' ↦ (t.groups id').filter (· ≠ id) }

/-- An element goes with what it owns, and with what refers to its id. -/
def deleteElement (id : Nat) : Tables where
  elements := t.elements.filter (·.id ≠ id)
  ext := Function.update t.ext id []
  links := Function.update (fun id' ↦ (t.links id').filter (·.src ≠ id)) id []
  groups := Function.update (fun id' ↦ (t.groups id').filter (· ≠ id)) id []

/-- No other element has the element `id` as its logical asset. -/
def Unreferenced (id : Nat) : Prop :=
  ∀ e ∈ t.elements, e.id = id → ∀ id', id' ≠ id → ∀ row ∈ t.ext id',
    row.keytag = "logical_asset" → row.value ≠ e.name

end Tables

/-- What the deletions of the library do to the tables when they are answered with success. -/
structure DeleteTablesLaws {σ : Type} (db : DeleteDb σ) (tables : σ → Tables) : Prop where
  fromGroups : ∀ s id, (db.deleteAssetElementFromAssetGroups s id).2.status ≠ 0 →
    tables (db.deleteAssetElementFromAssetGroups s id).1 = (tables s).deleteGroups id
  groupLinks : ∀ s id, (db.deleteAssetGroupLinks s id).2.status ≠ 0 →
    tables (db.deleteAssetGroupLinks s id).1 = (tables s).deleteMembers id
  linksTo : ∀ s id, (db.deleteAssetLinksTo s id).2.status ≠ 0 →
    tables (db.deleteAssetLinksTo s id).1 = (tables s).deleteLinks id
  relation : ∀ s id, (db.deleteMonitorAssetRelationByA s id).2.status ≠ 0 →
    tables (db.deleteMonitorAssetRelationByA s id).1 = tables s
  element : ∀ s id, (db.deleteAssetElement s id).2.status ≠ 0 →
    tables (db.deleteAssetElement s id).1 = (tables s).deleteElement id

/-! ## The deletion of an element -/

section

variable {typeName : Nat → String} {ids : List Identity} {t : Tables} {id : Nat}

theorem identities_deleteElement (t : Tables) (id : Nat) :
    (t.deleteElement id).identities = t.identities.filter (·.id ≠ id) := by
  unfold Tables.identities Tables.deleteElement
  rw [List.filter_map]
  rfl

theorem ext_deleteElement_of_ne {id' : Nat} (h : id' ≠ id) :
    (t.deleteElement id).ext id' = t.ext id' :=
  Function.update_of_ne h _ _

theorem unreferenced_iff : t.Unreferenced id ↔ ∀ e ∈ t.identities, e.id = id → ∀ id', id' ≠ id →
    ∀ row ∈ t.ext id', row.keytag = "logical_asset" → row.value ≠ e.name := by
  unfold Tables.Unreferenced Tables.identities
  rw [List.forall_mem_map]
  rfl

theorem mem_identities_deleteElement {e : Identity} :
    e ∈ (t.deleteElement id).identities ↔ e ∈ t.identities ∧ e.id ≠ id := by
  rw [identities_deleteElement, List.mem_filter, decide_eq_true_eq]

/-- What is left of a list of every element. -/
theorem mem_update_nil {α : Type} {f : Nat → List α} {id' : Nat} {x : α} :
    x ∈ Function.update f id [] id' ↔ id' ≠ id ∧ x ∈ f id' := by
  by_cases hid : id' = id
  · subst hid
    rw [Function.update_self]
    simp
  · rw [Function.update_of_ne hid]
    simp [hid]

theorem mem_ext_deleteElement {id' : Nat} {row : ExtRow} :
    row ∈ (t.deleteElement id).ext id' ↔ id' ≠ id ∧ row ∈ t.ext id' :=
  mem_update_nil

theorem mem_links_deleteElement {id' : Nat} {link : Link} :
    link ∈ (t.deleteElement id).links id' ↔ id' ≠ id ∧ link ∈ t.links id' ∧ link.src ≠ id := by
  show link ∈ Function.update (fun id'' ↦ (t.links id'').filter (·.src ≠ id)) id [] id' ↔ _
  rw [mem_update_nil, List.mem_filter, decide_eq_true_eq]

theorem mem_groups_deleteElement {id' group : Nat} :
    group ∈ (t.deleteElement id).groups id' ↔ id' ≠ id ∧ group ∈ t.groups id' ∧ group ≠ id := by
  show group ∈ Function.update (fun id'' ↦ (t.groups id'').filter (· ≠ id)) id [] id' ↔ _
  rw [mem_update_nil, List.mem_filter, decide_eq_true_eq]

theorem Sound.deleteElement (h : Sound typeName t) (hun : t.Unreferenced id) :
    Sound typeName (t.deleteElement id) where
  ids := by
    rw [identities_deleteElement]
    exact h.ids.sublist (List.filter_sublist.map _)
  names := by
    rw [identities_deleteElement]
    exact h.names.sublist (List.filter_sublist.map _)
  given e he := h.given e (mem_identities_deleteElement.mp he).1
  keytags id' := by
    by_cases hid : id' = id
    · subst hid
      show ((Function.update t.ext id' [] id').map ExtRow.keytag).Nodup
      rw [Function.update_self]
      exact List.nodup_nil
    · rw [ext_deleteElement_of_ne hid]
      exact h.keytags id'
  attrs id' row hrow := by
    obtain ⟨hid, hrow⟩ := mem_ext_deleteElement.mp hrow
    have hok := h.attrs id' row hrow
    refine ⟨hok.title, hok.element, fun htype ↦ ?_, fun hasset ↦ ?_⟩
    · obtain ⟨hstrip, e, he, rfl, hgroup⟩ := hok.type htype
      exact ⟨hstrip, e, mem_identities_deleteElement.mpr ⟨he, hid⟩, rfl, hgroup⟩
    · obtain ⟨e, he, hname⟩ := hok.logicalAsset hasset
      -- no other asset names the deleted one as its logical asset
      have hne : e.id ≠ id := fun heq ↦
        unreferenced_iff.mp hun e he heq id' hid row hrow hasset hname.symm
      exact ⟨e, mem_identities_deleteElement.mpr ⟨he, hne⟩, hname⟩
  links id' link hlink := by
    obtain ⟨-, hlink, hsrc⟩ := mem_links_deleteElement.mp hlink
    obtain ⟨e, he, heq⟩ := h.links id' link hlink
    -- the links from the element go with it
    have hne : e.id ≠ id := heq ▸ hsrc
    exact ⟨e, mem_identities_deleteElement.mpr ⟨he, hne⟩, heq⟩
  groups id' group hgroup := by
    obtain ⟨-, hgroup, hother⟩ := mem_groups_deleteElement.mp hgroup
    obtain ⟨e, he, heq⟩ := h.groups id' group hgroup
    have hne : e.id ≠ id := heq ▸ hother
    exact ⟨e, mem_identities_deleteElement.mpr ⟨he, hne⟩, heq⟩

theorem Keeps.deleteElement (h : Keeps typeName ids t) (hun : t.Unreferenced id) :
    Keeps typeName (ids.filter (·.id ≠ id)) (t.deleteElement id) where
  identities := by rw [identities_deleteElement, h.identities]
  sound := h.sound.deleteElement hun
  named e he := by
    obtain ⟨he, hne⟩ := List.mem_filter.mp he
    unfold Tables.Named
    rw [ext_deleteElement_of_ne (of_decide_eq_true hne)]
    exact h.named e he

theorem Keeps.deleteMembers (h : Keeps typeName ids t) :
    Keeps typeName ids (t.deleteMembers id) := by
  refine h.of_sound rfl rfl ?_
  obtain ⟨hids, hnames, hgiven, hkeytags, hattrs, hlinks, hgroups⟩ := h.sound
  exact ⟨hids, hnames, hgiven, hkeytags, hattrs, hlinks,
    fun id' group hgroup ↦ hgroups id' group (List.mem_of_mem_filter hgroup)⟩

end

/-! ## The deletions -/

section

variable {σ : Type} {db' : DeleteDb σ} {tools : Tools} {tables : σ → Tables} {s s' : σ}
  {elementId : Nat} {reply : DbReply} {typeName : Nat → String} {ids : List Identity}

/-- The rows of a device that are deleted before its element. -/
def Tables.withoutDevice (t : Tables) (id : Nat) : Tables := (t.deleteGroups id).deleteLinks id

theorem deleteDeviceBody_tables (hdb : DeleteTablesLaws db' tables)
    (h : deleteDeviceBody db' tools s elementId = .ok (s', reply)) :
    tables s' = ((tables s).withoutDevice elementId).deleteElement elementId := by
  obtain ⟨⟨hgroups, hlinks, hrelation, helement⟩, rfl, -⟩ := deleteDeviceBody_ok h
  rw [deviceDeleted, hdb.element _ _ helement, hdb.relation _ _ hrelation, hdb.linksTo _ _ hlinks,
    hdb.fromGroups _ _ hgroups]
  rfl

theorem deleteDcRoomRowRackBody_tables (hdb : DeleteTablesLaws db' tables) {overridden : Bool}
    (h : deleteDcRoomRowRackBody db' tools overridden s elementId = .ok (s', reply)) :
    tables s' = ((tables s).deleteGroups elementId).deleteElement elementId := by
  simp only [deleteDcRoomRowRackBody, bind_eq_ok, pure_eq_ok, require_eq_ok, exists_const,
    Prod.mk.injEq] at h
  obtain ⟨-, hgroups, -, hrelation, helement, rfl, -⟩ := h
  rw [hdb.element _ _ helement, hdb.relation _ _ hrelation, hdb.fromGroups _ _ hgroups]

theorem deleteGroupBody_tables (hdb : DeleteTablesLaws db' tables)
    (h : deleteGroupBody db' tools s elementId = .ok (s', reply)) :
    tables s' = ((tables s).deleteMembers elementId).deleteElement elementId := by
  simp only [deleteGroupBody, bind_eq_ok, pure_eq_ok, require_eq_ok, exists_const,
    Prod.mk.injEq] at h
  obtain ⟨hmembers, helement, rfl, -⟩ := h
  rw [hdb.element _ _ helement, hdb.groupLinks _ _ hmembers]

/-- A deletion that commits takes one element away, and one that does not leaves the tables. -/
theorem deleted_keeps {body : Except DbReply (σ × DbReply)} {without : Tables}
    (hbody : ∀ s' reply, body = .ok (s', reply) → tables s' = without.deleteElement elementId)
    (hwithout : Keeps typeName ids without) (hun : without.Unreferenced elementId)
    (h : Keeps typeName ids (tables s)) :
    ∃ ids', Keeps typeName ids' (tables (deleted s body).1) := by
  cases hresult : body with
  -- a deletion that fails is rolled back
  | error reply => exact ⟨ids, h⟩
  | ok r =>
    refine ⟨ids.filter (·.id ≠ elementId), ?_⟩
    show Keeps _ _ (tables r.1)
    rw [hbody r.1 r.2 hresult]
    exact hwithout.deleteElement hun

theorem deleteDcRoomRowRack_keeps (hdb : DeleteTablesLaws db' tables) (overridden : Bool)
    (hun : (tables s).Unreferenced elementId) (h : Keeps typeName ids (tables s)) :
    ∃ ids', Keeps typeName ids'
      (tables (deleteDcRoomRowRack db' tools overridden s elementId).1) :=
  deleted_keeps (fun _ _ ↦ deleteDcRoomRowRackBody_tables hdb) h.deleteGroups hun h

theorem deleteGroup_keeps (hdb : DeleteTablesLaws db' tables)
    (hun : (tables s).Unreferenced elementId) (h : Keeps typeName ids (tables s)) :
    ∃ ids', Keeps typeName ids' (tables (deleteGroup db' tools s elementId).1) :=
  deleted_keeps (fun _ _ ↦ deleteGroupBody_tables hdb) h.deleteMembers hun h

/-- The licensing may set statuses after that. -/
theorem deleteDevice_tables {db : AssetsDb σ} {act : AssetActivator σ}
    (hassets : TablesLaws db act tables) (db' : DeleteDb σ) (tools : Tools) (w : World σ)
    (elementId : Nat) (assetJson : String) :
    ∃ status, tables (deleteDevice db' tools act w elementId assetJson).1.store =
      (tables (deleted w.store (deleteDeviceBody db' tools w.store elementId)).1).setStatus
        status := by
  have hsame : ∀ t : Tables, t = t.setStatus fun _ status ↦ status := fun t ↦ by
    unfold Tables.setStatus
    rw [List.map_id']
  unfold deleteDevice deleted
  cases deleteDeviceBody db' tools w.store elementId with
  | error reply => exact ⟨_, hsame _⟩
  | ok r =>
    dsimp only
    by_cases hjson : assetJson ≠ ""
    · rw [if_pos hjson]
      obtain ⟨status, hstatus⟩ := hassets.deactivate { w with store := r.1 } assetJson
      refine ⟨status, ?_⟩
      rw [← hstatus]
      split
      · rename_i heq
        rw [heq]
      · rename_i heq
        rw [heq]
    · rw [if_neg hjson]
      exact ⟨_, hsame _⟩

theorem deleteDevice_keeps {db : AssetsDb σ} {act : AssetActivator σ}
    (hassets : TablesLaws db act tables) (hdb : DeleteTablesLaws db' tables) (w : World σ)
    (assetJson : String) (hun : (tables w.store).Unreferenced elementId)
    (h : Keeps typeName ids (tables w.store)) :
    ∃ ids', Keeps typeName ids'
      (tables (deleteDevice db' tools act w elementId assetJson).1.store) := by
  obtain ⟨status, hstatus⟩ := deleteDevice_tables hassets db' tools w elementId assetJson
  have hbody : ∀ s' reply, deleteDeviceBody db' tools w.store elementId = .ok (s', reply) →
      tables s' = ((tables w.store).withoutDevice elementId).deleteElement elementId :=
    fun _ _ ↦ deleteDeviceBody_tables hdb
  obtain ⟨ids', hkeeps⟩ := deleted_keeps hbody h.deleteGroups.deleteLinks hun h
  refine ⟨ids', ?_⟩
  rw [hstatus]
  exact hkeeps.setStatus status

end

/-! ## Series of imports and deletions -/

/-- How an import is called: with a table that was read, and the types of the database. -/
structure LoadOk (typeName : Nat → String) (a : LoadArgs) : Prop where
  cm : ∃ cm : CsvMap, cm.titleToIndex = [] ∧ cm.deserialize = .ok a.cm
  types : ∀ type id, a.types.lookup type = some id → id < 2 ^ 16 ∧ typeName id = type

/-- The worlds that are reached by imports and deletions.  An import can be stopped in any state of
its loop, also by an exception of a row; nothing is deleted that is a logical asset. -/
inductive Managed {σ : Type} (db : AssetsDb σ) (db' : DeleteDb σ) (tools : Tools)
    (act : AssetActivator σ) (tables : σ → Tables) (typeName : Nat → String) : World σ → Prop where
  | installed {w : World σ} : Installed (tables w.store) →
      Managed db db' tools act tables typeName w
  | load {w : World σ} {what : Thrown → String} {a : LoadArgs}
      {touchFn : World σ → Except RowError Unit} {rest : List Nat}
      {i : Import (Load σ) RowResult} : Managed db db' tools act tables typeName w →
      LoadOk typeName a → Loading db tools act what a touchFn w rest i →
      Managed db db' tools act tables typeName i.world.world
  | thrown {w : World σ} {what : Thrown → String} {a : LoadArgs}
      {touchFn : World σ → Except RowError Unit} {row : Nat} {rest : List Nat}
      {i : Import (Load σ) RowResult} : Managed db db' tools act tables typeName w →
      LoadOk typeName a → Loading db tools act what a touchFn w (row :: rest) i →
      Managed db db' tools act tables typeName (loadRow db tools act what a i.world row).1.world
  | dcRoomRowRack {w : World σ} {overridden : Bool} {elementId : Nat} :
      Managed db db' tools act tables typeName w → (tables w.store).Unreferenced elementId →
      Managed db db' tools act tables typeName
        { w with store := (deleteDcRoomRowRack db' tools overridden w.store elementId).1 }
  | group {w : World σ} {elementId : Nat} :
      Managed db db' tools act tables typeName w → (tables w.store).Unreferenced elementId →
      Managed db db' tools act tables typeName
        { w with store := (deleteGroup db' tools w.store elementId).1 }
  | device {w : World σ} {elementId : Nat} {assetJson : String} :
      Managed db db' tools act tables typeName w → (tables w.store).Unreferenced elementId →
      Managed db db' tools act tables typeName
        (deleteDevice db' tools act w elementId assetJson).1

section

variable {σ : Type} {db : AssetsDb σ} {db' : DeleteDb σ} {tools : Tools} {act : AssetActivator σ}
  {tables : σ → Tables} {typeName subtypeName : Nat → String} {w : World σ}
  {what : Thrown → String} {a : LoadArgs} {touchFn : World σ → Except RowError Unit}
  {rest : List Nat} {i : Import (Load σ) RowResult} {x : ExportDb σ}

theorem LoadOk.input (h : LoadOk typeName a) (row : Nat) (ids : List Nat) :
    ImportArgs typeName (a.input row ids) :=
  ⟨h.cm, rfl, h.types⟩

/-- A row keeps the tables sound, whatever becomes of it. -/
theorem loadRow_keeps (hassets : TablesLaws db act tables) (ha : LoadOk typeName a) {l : Load σ}
    (row : Nat) (h : ∃ ids, Keeps typeName ids (tables l.world.store)) :
    ∃ ids, Keeps typeName ids (tables (loadRow db tools act what a l row).1.world.store) := by
  obtain ⟨ids, h⟩ := h
  rw [loadRow_world]
  exact processRow_keeps hassets (ha.input row l.ids) h

theorem Loading.keeps (hassets : TablesLaws db act tables) (ha : LoadOk typeName a)
    (h : ∃ ids, Keeps typeName ids (tables w.store))
    (hloading : Loading db tools act what a touchFn w rest i) :
    ∃ ids, Keeps typeName ids (tables i.world.world.store) := by
  induction hloading with
  | start => exact h
  | again _ _ ih => exact ih
  | row _ hrow ih =>
    rcases importRow_world hrow with ⟨-, hworld⟩ | ⟨-, hworld⟩
    · rw [hworld]
      exact ih
    · rw [hworld]
      exact loadRow_keeps hassets ha _ ih

theorem Managed.keeps (hassets : TablesLaws db act tables) (hdb : DeleteTablesLaws db' tables)
    (h : Managed db db' tools act tables typeName w) :
    ∃ ids, Keeps typeName ids (tables w.store) := by
  induction h with
  | installed hinstalled => exact ⟨_, hinstalled.keeps⟩
  | load _ ha hloading ih => exact hloading.keeps hassets ha ih
  | thrown _ ha hloading ih => exact loadRow_keeps hassets ha _ (hloading.keeps hassets ha ih)
  | dcRoomRowRack _ hun ih =>
    obtain ⟨ids, hw⟩ := ih
    exact deleteDcRoomRowRack_keeps hdb _ hun hw
  | group _ hun ih =>
    obtain ⟨ids, hw⟩ := ih
    exact deleteGroup_keeps hdb hun hw
  | device _ hun ih =>
    obtain ⟨ids, hw⟩ := ih
    exact deleteDevice_keeps hassets hdb _ _ hun hw

/-- After any series of imports and deletions the tables are sound, and the export prints one line
for every asset. -/
theorem managed_exports (hassets : TablesLaws db act tables) (hdb : DeleteTablesLaws db' tables)
    (hw : Managed db db' tools act tables typeName w)
    (hx : ExportLaws x typeName subtypeName w.store (tables w.store)) :
    (∃ ids, Keeps typeName ids (tables w.store)) ∧ ∀ dcId, ∃ header lines es,
      exportAssetCsv x w.store dcId = .ok (header :: lines) ∧
      exportedElements x w.store dcId = (0, es.map (ElementRow.view typeName subtypeName)) ∧
      lines.length = es.length ∧ es ⊆ (tables w.store).elements ∧
      (dcId ≤ 0 → es.Perm (tables w.store).elements) := by
  obtain ⟨ids, h⟩ := hw.keeps hassets hdb
  refine ⟨⟨ids, h⟩, fun dcId ↦ ?_⟩
  obtain ⟨keytags, es, parts, -, -, hes, hsub, hperm, -, hexport⟩ := exportAssetCsv_eq hx h dcId
  exact ⟨_, _, es, hexport, hes, List.length_map _, hsub, hperm⟩

/-! ## A logical asset that is deleted -/

theorem answered_eq_ok {α : Type} {r : Int × α} {y : α} : answered r = .ok y ↔ r = (0, y) := by
  obtain ⟨rv, y'⟩ := r
  show (if rv ≠ 0 then _ else _) = _ ↔ _
  by_cases hzero : rv = 0
  · subst hzero
    simp
  · rw [if_pos hzero]
    simp [hzero]

theorem exportRow_logicalAsset {s : σ} {m g : Nat} {keytags cells : List String} {r : ElementView}
    {attrs : ExtMap} {value : String} {readOnly : Bool}
    (hext : x.selectExtAttributes s r.id = (0, attrs))
    (hasset : attrs.lookup "logical_asset" = some (value, readOnly))
    (h : exportRow x s m g keytags r = .ok cells) : (x.nameToExtname s value).1 = 0 := by
  have hsame : (subtypeCell r attrs).2.lookup "logical_asset" = some (value, readOnly) := by
    unfold subtypeCell
    by_cases hgroup : r.typeName = "group"
    · rw [if_pos hgroup]
      cases attrs.lookup "type" with
      | none => exact hasset
      | some type =>
        show (ExtMap.erase attrs "type").lookup "logical_asset" = _
        rw [ExtMap.lookup_erase, if_neg (by decide), hasset]
    · rw [if_neg hgroup]
      exact hasset
  simp only [exportRow, hext, answered_zero, ok_bind, bind_eq_ok] at h
  obtain ⟨-, -, links, -, groups, -, power, -, named, hnamed, -⟩ := h
  unfold nameLogicalAsset at hnamed
  rw [hsame] at hnamed
  obtain ⟨extname, hextname, -⟩ := bind_eq_ok.mp hnamed
  rw [answered_eq_ok.mp hextname]

theorem exportAssetCsv_rows {s : σ} {dcId : Int} {table : List (List String)}
    {es : List ElementView} (hes : exportedElements x s dcId = (0, es))
    (h : exportAssetCsv x s dcId = .ok table) :
    ∀ r ∈ es, ∃ m g keytags cells, exportRow x s m g keytags r = .ok cells := by
  simp only [exportAssetCsv, bind_eq_ok, pure_eq_ok] at h
  obtain ⟨rows, -, elements, helements, lines, hlines, -⟩ := h
  obtain rfl := Prod.mk.inj (answered_eq_ok.mp helements |>.symm.trans hes) |>.2
  intro r hr
  obtain ⟨cells, -, hcells⟩ := mapM_ok_image hlines hr
  exact ⟨_, _, _, cells, hcells⟩

/-- A name that is gone cannot be printed. -/
theorem unreferenced_of_exportRows {t t' : Tables} {id : Nat} {s : σ} (h : Sound typeName t)
    (hids : t'.identities = t.identities.filter (·.id ≠ id))
    (hext : ∀ id', id' ≠ id → t'.ext id' = t.ext id')
    (howned : ∀ id, t.ext id ≠ [] → ∃ e ∈ t.elements, e.id = id)
    (hx : ExportLaws x typeName subtypeName s t')
    (hmissing : ∀ name, (∀ e ∈ t'.elements, e.name ≠ name) → (x.nameToExtname s name).1 ≠ 0)
    (hrows : ∀ e ∈ t'.elements, ∃ m g keytags cells,
      exportRow x s m g keytags (e.view typeName subtypeName) = .ok cells) :
    t.Unreferenced id := by
  have hleft : ∀ e, e ∈ t'.identities ↔ e ∈ t.identities ∧ e.id ≠ id := by
    intro e
    rw [hids, List.mem_filter, decide_eq_true_eq]
  rw [unreferenced_iff]
  rintro e he heid id' hne row hrow hasset hvalue
  obtain ⟨owner, howner, hownerId⟩ := howned id' (List.ne_nil_of_mem hrow)
  -- the owner of the attribute is printed
  have hownerNe : owner.identity.id ≠ id := fun heq ↦ hne (hownerId.symm.trans heq)
  obtain ⟨owner', howner', hsame⟩ := List.mem_map.mp
    ((hleft owner.identity).mpr ⟨List.mem_map_of_mem howner, hownerNe⟩)
  have hid : owner'.id = id' := (congrArg Identity.id hsame).trans hownerId
  obtain ⟨attrs, hattrs, hlookup⟩ := hx.ext owner' howner'
  have hfind : (t.ext id').find? (·.keytag = "logical_asset") = some row := by
    rw [← hasset]
    exact find_of_nodup ExtRow.keytag (h.keytags id') hrow
  have hvalueOf := hlookup "logical_asset"
  rw [hid, hext id' hne, hfind] at hvalueOf
  obtain ⟨m, g, keytags, cells, hcells⟩ := hrows owner' howner'
  have hzero := exportRow_logicalAsset hattrs hvalueOf hcells
  rw [hvalue] at hzero
  -- but the name is nobody's any more
  refine hmissing e.name (fun other hother hname ↦ ?_) hzero
  obtain ⟨hmem, hotherId⟩ := (hleft other.identity).mp (List.mem_map_of_mem hother)
  have heq : other.identity = e := List.inj_on_of_nodup_map h.names hmem he hname
  exact hotherId (heq ▸ heid)

/-- After a device has been deleted the export of all assets works exactly if no other asset has it
as its logical asset. -/
theorem deleteDevice_exports_iff (hassets : TablesLaws db act tables)
    (hdb : DeleteTablesLaws db' tables) (hw : Managed db db' tools act tables typeName w)
    {elementId : Nat} {assetJson : String} {dcId : Int} (hdc : dcId ≤ 0)
    (hdeletes : DeviceDeletes db' w.store elementId)
    (howned : ∀ id, (tables w.store).ext id ≠ [] → ∃ e ∈ (tables w.store).elements, e.id = id)
    {s : σ} (hs : s = (deleteDevice db' tools act w elementId assetJson).1.store)
    (hx : ExportLaws x typeName subtypeName s (tables s))
    (hmissing : ∀ name, (∀ e ∈ (tables s).elements, e.name ≠ name) →
      (x.nameToExtname s name).1 ≠ 0) :
    (∃ table, exportAssetCsv x s dcId = .ok table) ↔ (tables w.store).Unreferenced elementId := by
  obtain ⟨ids, h⟩ := hw.keeps hassets hdb
  constructor
  · rintro ⟨table, htable⟩
    obtain ⟨status, hstatus⟩ := deleteDevice_tables hassets db' tools w elementId assetJson
    -- the rows behind the deletion are those before without the device, however the statuses are
    have htables : tables s =
        (((tables w.store).withoutDevice elementId).deleteElement elementId).setStatus status := by
      rw [hs, hstatus]
      cases hbody : deleteDeviceBody db' tools w.store elementId with
      | error reply => exact absurd hdeletes (deleteDeviceBody_error hbody).1
      | ok r =>
        obtain ⟨s', reply⟩ := r
        exact congrArg (Tables.setStatus · status) (deleteDeviceBody_tables hdb hbody)
    obtain ⟨es, hperm, hall⟩ := hx.all
    have hprinted : exportedElements x s dcId =
        (0, es.map (ElementRow.view typeName subtypeName)) := by
      unfold exportedElements
      rw [if_neg (by omega), hall]
    have hrows := exportAssetCsv_rows hprinted htable
    refine unreferenced_of_exportRows h.sound ?_ ?_ howned hx hmissing fun e he ↦
      hrows _ (List.mem_map_of_mem (hperm.mem_iff.mpr he))
    · rw [htables, Tables.identities_setStatus, identities_deleteElement]
      rfl
    · intro id' hne
      rw [htables]
      show (((tables w.store).withoutDevice elementId).deleteElement elementId).ext id' = _
      rw [ext_deleteElement_of_ne hne]
      rfl
  · intro hun
    obtain ⟨ids', hkeeps⟩ : ∃ ids', Keeps typeName ids' (tables s) := by
      rw [hs]
      exact deleteDevice_keeps hassets hdb w assetJson hun h
    obtain ⟨keytags, es, parts, -, -, -, -, -, -, hexport⟩ := exportAssetCsv_eq hx hkeeps dcId
    exact ⟨_, hexport⟩

end

/-! ## Deletions from tables -/

/-- The deletions of the library over the tables themselves. -/
def tablesDeletes : DeleteDb Tables where
  numDatacentersWithout t id :=
    (t.elements.filter fun e ↦ e.typeId = AssetType.datacenter ∧ e.id ≠ id).length
  convertAssetToMonitor _ _ := 0
  deleteAssetElementFromAssetGroups t id := (t.deleteGroups id, {})
  deleteAssetGroupLinks t id := (t.deleteMembers id, {})
  deleteAssetLinksTo t id := (t.deleteLinks id, {})
  deleteMonitorAssetRelationByA t _ := (t, {})
  deleteAssetElement t id := (t.deleteElement id, {})

theorem tablesDeletes_laws : DeleteTablesLaws tablesDeletes id :=
  ⟨fun _ _ _ ↦ rfl, fun _ _ _ ↦ rfl, fun _ _ _ ↦ rfl, fun _ _ _ ↦ rfl, fun _ _ _ ↦ rfl⟩

def upsElement (id : Nat) : ElementRow where
  id := id
  name := "ups-" ++ toString id
  typeId := AssetType.device
  subtypeId := 1
  parentId := 0
  status := "active"
  priority := 1
  assetTag := ""

/-- Two devices, and nothing else. -/
def upsPair : Tables where
  elements := [upsElement 7, upsElement 8]
  ext id := if id = 7 ∨ id = 8 then [⟨"name", "UPS " ++ toString id, false⟩] else []
  links _ := []
  groups _ := []

theorem mem_upsPair_ext {id : Nat} {row : ExtRow} (h : row ∈ upsPair.ext id) :
    (id = 7 ∨ id = 8) ∧ row.keytag = "name" := by
  have h : row ∈ if id = 7 ∨ id = 8 then [⟨"name", "UPS " ++ toString id, false⟩] else [] := h
  split at h
  · obtain rfl := List.mem_singleton.mp h
    exact ⟨‹_›, rfl⟩
  · cases h

theorem upsPair_installed : Installed upsPair where
  ids := by decide
  names := by decide
  given := by decide
  ext e he := by
    have hid : e.id = 7 ∨ e.id = 8 := by
      revert e
      decide
    exact ⟨_, if_pos hid⟩
  noExt id h := by
    apply List.eq_nil_iff_forall_not_mem.mpr
    intro row hrow
    rcases (mem_upsPair_ext hrow).1 with rfl | rfl
    · exact h (upsElement 7) (by decide) rfl
    · exact h (upsElement 8) (by decide) rfl
  links _ := rfl
  groups _ := rfl

def upsTypeName (_ : Nat) : String := "device"

/-- The world with the two devices. -/
def upsPairWorld : World Tables := ⟨upsPair, fun _ ↦ false⟩

/-- A table that gives the second device the first one as its logical asset. -/
def upsTable : LoadArgs where
  cm := {
    data := [["id", "name", "type", "sub_type", "location", "status", "priority", "logical_asset"],
      ["ups-8", "UPS 8", "device", "ups", "", "nonactive", "P1", "UPS 7"]]
    titleToIndex := ["id", "name", "type", "sub_type", "location", "status", "priority",
      "logical_asset"].zipIdx }
  types := [("device", AssetType.device)]
  subtypes := [("patch panel", 3), ("rack controller", 2), ("ups", 1)]
  limitations := { globalConfigurability := 1 }

def loadedPlan : RowPlan where
  idStr := "ups-8"
  id := 8
  ename := "UPS 8"
  iname := "ups-8"
  type := "device"
  typeId := AssetType.device
  status := "nonactive"
  assetTag := ""
  priority := 1
  parentId := 0
  rackControllerId := 2
  subtype := "ups"
  subtypeId := 1
  groups := []
  links := []
  ext := [("name", "UPS 8"), ("logical_asset", "ups-7")]

theorem upsTable_ok : LoadOk upsTypeName upsTable where
  cm := ⟨{ upsTable.cm with titleToIndex := [] }, rfl, rfl⟩
  types type id h := by
    have htypes : upsTable.types = [("device", AssetType.device)] := rfl
    rw [htypes, List.lookup_cons, List.lookup_nil] at h
    cases htype : type == "device" with
    | false =>
      rw [htype] at h
      cases h
    | true =>
      rw [htype] at h
      rw [← Option.some.inj h]
      exact ⟨by decide, (beq_iff_eq.mp htype).symm⟩

/-- The world after the import of the table. -/
def upsLoaded : World Tables :=
  (loadRow tablesAssets plainTools idleActivator (fun _ ↦ "") upsTable
    { world := upsPairWorld } 1).1.world

theorem upsLoaded_managed :
    Managed tablesAssets tablesDeletes plainTools idleActivator id upsTypeName upsLoaded := by
  have hload : Loading tablesAssets plainTools idleActivator (fun _ ↦ "") upsTable
      (fun _ ↦ .ok ()) upsPairWorld [] _ :=
    .row .start (show importRow _ _ _ 1 = some _ from rfl)
  exact .load (.installed upsPair_installed) upsTable_ok hload

theorem upsLoaded_store : upsLoaded.store =
    loadedPlan.asked (upsTable.input 1 []) (upsPair.setStatus fun _ status ↦ status) :=
  rfl

theorem upsLoaded_ext {id : Nat} (h : id ≠ 8) : upsLoaded.store.ext id = upsPair.ext id := by
  rw [upsLoaded_store, RowPlan.asked, if_neg (by decide), if_pos (by decide)]
  exact Tables.updateDevice_ext_of_ne _ _ h

/-- Nothing refers to the second device. -/
theorem upsLoaded_unreferenced : upsLoaded.store.Unreferenced 8 := by
  intro e _ _ id' hne row hrow hasset
  rw [upsLoaded_ext hne] at hrow
  rw [(mem_upsPair_ext hrow).2] at hasset
  exact absurd hasset (by decide)

/-- The world without it. -/
def upsLeft : World Tables :=
  (deleteDevice tablesDeletes plainTools idleActivator upsLoaded 8 "").1

theorem upsLeft_managed :
    Managed tablesAssets tablesDeletes plainTools idleActivator id upsTypeName upsLeft :=
  .device upsLoaded_managed upsLoaded_unreferenced

theorem managed_exports_ups :
    (∃ ids, Keeps upsTypeName ids upsLeft.store) ∧ ∀ dcId, ∃ header lines es,
      exportAssetCsv (tablesExport upsTypeName fun _ ↦ "ups") upsLeft.store dcId =
        .ok (header :: lines) ∧
      exportedElements (tablesExport upsTypeName fun _ ↦ "ups") upsLeft.store dcId =
        (0, es.map (ElementRow.view upsTypeName fun _ ↦ "ups")) ∧
      lines.length = es.length ∧ es ⊆ upsLeft.store.elements ∧
      (dcId ≤ 0 → es.Perm upsLeft.store.elements) := by
  obtain ⟨ids, hkeeps⟩ := upsLeft_managed.keeps tablesAssets_laws tablesDeletes_laws
  exact managed_exports tablesAssets_laws tablesDeletes_laws upsLeft_managed
    (hkeeps.tablesExport (by decide) (by decide))

/-- The world without the first device, which is the logical asset of the second one. -/
def upsGone : World Tables :=
  (deleteDevice tablesDeletes plainTools idleActivator upsLoaded 7 "").1

/-- The export does not work any more. -/
theorem deleteDevice_exports_iff_ups : ¬ ∃ table,
    exportAssetCsv (tablesExport upsTypeName fun _ ↦ "ups") upsGone.store 0 = .ok table := by
  have howned : ∀ id, upsLoaded.store.ext id ≠ [] → ∃ e ∈ upsLoaded.store.elements, e.id = id := by
    intro id hne
    have hid : id = 7 ∨ id = 8 := by
      by_contra hnot
      rw [not_or] at hnot
      rw [upsLoaded_ext hnot.2] at hne
      obtain ⟨row, hrow⟩ := List.exists_mem_of_ne_nil _ hne
      exact (mem_upsPair_ext hrow).1.elim hnot.1 hnot.2
    have hboth : ∀ id' ∈ [7, 8], ∃ e ∈ upsLoaded.store.elements, e.id = id' := by
      decide +kernel
    exact hboth id (List.mem_pair.mpr hid)
  have hmissing : ∀ name, (∀ e ∈ upsGone.store.elements, e.name ≠ name) →
      ((tablesExport upsTypeName fun _ ↦ "ups").nameToExtname upsGone.store name).1 ≠ 0 := by
    intro name hnone
    have hnobody : upsGone.store.extnameOf name = none := by
      unfold Tables.extnameOf
      rw [List.find?_eq_none.mpr fun e he ↦ by simpa using hnone e he]
      rfl
    have hname : (tablesExport upsTypeName fun _ ↦ "ups").nameToExtname upsGone.store name =
        (-1, "") := by
      simp only [tablesExport, hnobody]
    rw [hname]
    decide
  have hexport : ExportLaws (tablesExport upsTypeName fun _ ↦ "ups") upsTypeName (fun _ ↦ "ups")
      upsGone.store upsGone.store :=
    tablesExport_laws (by decide +kernel) (by decide +kernel) (by decide +kernel)
      (by decide +kernel) (by decide +kernel)
  have hdeletes : DeviceDeletes tablesDeletes upsLoaded.store 7 :=
    ⟨by decide, by decide, by decide, by decide⟩
  have hasset : ¬ upsLoaded.store.Unreferenced 7 := by
    intro hun
    have hname : ∃ e ∈ upsLoaded.store.elements, e.id = 7 ∧ e.name = "ups-7" := by
      decide +kernel
    obtain ⟨e, he, hid, hname⟩ := hname
    exact hun e he hid 8 (by decide) ⟨"logical_asset", "ups-7", false⟩ (by decide +kernel) rfl
      hname.symm
  intro hworks
  exact hasset ((deleteDevice_exports_iff tablesAssets_laws tablesDeletes_laws upsLoaded_managed
    (by decide) hdeletes howned rfl hexport hmissing).mp hworks)

end FtyRest.Db
