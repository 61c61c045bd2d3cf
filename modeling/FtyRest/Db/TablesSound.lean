import FtyRest.Db.Inout.ExportCsv
import FtyRest.Db.Tables

/-!
# Tables that are sound

What the writing of an asset keeps of the tables: every element has a name, the attributes have
titles that a table can have, and what is referred to is there.
-/

namespace FtyRest.Db

open Shared Checks

/-- What is never changed of an element. -/
structure Identity where
  id : Nat
  name : String
  typeId : Nat
deriving DecidableEq, Repr

def ElementRow.identity (e : ElementRow) : Identity := ⟨e.id, e.name, e.typeId⟩

def Tables.identities (t : Tables) : List Identity := t.elements.map ElementRow.identity

/-- What holds of an attribute of the element `id`. -/
structure AttrOk (typeName : Nat → String) (ids : List Identity) (id : Nat) (row : ExtRow) :
    Prop where
  title : row.readOnly = false → ciStrip row.keytag = row.keytag
  element : row.readOnly = false → row.keytag ∈ assetElementKeytags →
    row.keytag = "name" ∨ row.keytag = "type"
  type : row.keytag = "type" → ciStrip row.value = row.value ∧
    ∃ e ∈ ids, e.id = id ∧ typeName e.typeId = "group"
  logicalAsset : row.keytag = "logical_asset" → ∃ e ∈ ids, e.name = row.value

structure Sound (typeName : Nat → String) (t : Tables) : Prop where
  ids : (t.identities.map Identity.id).Nodup
  names : (t.identities.map Identity.name).Nodup
  given : ∀ e ∈ t.identities, e.id ≠ 0 ∧ e.name ≠ ""
  keytags : ∀ id, ((t.ext id).map ExtRow.keytag).Nodup
  attrs : ∀ id, ∀ row ∈ t.ext id, AttrOk typeName t.identities id row
  links : ∀ id, ∀ link ∈ t.links id, ∃ e ∈ t.identities, e.id = link.src
  groups : ∀ id, ∀ group ∈ t.groups id, ∃ e ∈ t.identities, e.id = group

/-- The element has an external name. -/
def Tables.Named (t : Tables) (id : Nat) : Prop := "name" ∈ (t.ext id).map ExtRow.keytag

/-- The elements are those of `ids`, and the tables are sound. -/
structure Keeps (typeName : Nat → String) (ids : List Identity) (t : Tables) : Prop where
  identities : t.identities = ids
  sound : Sound typeName t
  named : ∀ e ∈ ids, t.Named e.id

/-- What is written is fit for the element `id`. -/
structure WriteOk (typeName : Nat → String) (ids : List Identity) (id : Nat) (a : AssetWrite) :
    Prop where
  ext : ∀ attr ∈ a.extattributes, AttrOk typeName ids id ⟨attr.1, attr.2, false⟩
  named : "name" ∈ a.extattributes.map Prod.fst
  ro : ∀ ro, a.extattributesRO = some ro → ∀ attr ∈ ro,
    AttrOk typeName ids id ⟨attr.1, attr.2, true⟩
  groups : ∀ group ∈ a.groups, ∃ e ∈ ids, e.id = group
  links : ∀ link ∈ a.links, ∃ e ∈ ids, e.id = link.src

theorem WriteOk.withStatus {typeName : Nat → String} {ids : List Identity} {id : Nat}
    {a : AssetWrite} (h : WriteOk typeName ids id a) (status : String) :
    WriteOk typeName ids id { a with status } :=
  ⟨h.ext, h.named, h.ro, h.groups, h.links⟩

/-! ## Single writes -/

namespace Tables

variable (t : Tables)

@[simp]
theorem identities_updateElement (id : Nat) (c : ElementColumns) :
    (t.updateElement id c).identities = t.identities := by
  simp only [identities, updateElement, List.map_map]
  apply List.map_congr_left
  intro e _
  show ElementRow.identity (if e.id = id then _ else e) = e.identity
  split <;> rfl

@[simp]
theorem identities_setStatus (status : Nat → String → String) :
    (t.setStatus status).identities = t.identities := by
  simp only [identities, setStatus, List.map_map]
  rfl

@[simp]
theorem identities_insertElement (e : ElementRow) :
    (t.insertElement e).identities = t.identities ++ [e.identity] := by
  simp [identities, insertElement]

end Tables

variable {typeName : Nat → String} {ids ids' : List Identity} {t : Tables} {id : Nat}

theorem AttrOk.mono {row : ExtRow} (h : AttrOk typeName ids id row) (hids : ids ⊆ ids') :
    AttrOk typeName ids' id row where
  title := h.title
  element := h.element
  -- an element that the attribute needs is still there
  type hk := by
    obtain ⟨hvalue, e, he, hgroup⟩ := h.type hk
    exact ⟨hvalue, e, hids he, hgroup⟩
  logicalAsset hk := by
    obtain ⟨e, he, hname⟩ := h.logicalAsset hk
    exact ⟨e, hids he, hname⟩

namespace Sound

variable (h : Sound typeName t)
include h

/-- The attributes, the links and the groups are left alone. -/
theorem of_identities {t' : Tables} (hids : t'.identities = t.identities) (hext : t'.ext = t.ext)
    (hlinks : t'.links = t.links) (hgroups : t'.groups = t.groups) : Sound typeName t' := by
  constructor
  · rw [hids]
    exact h.ids
  · rw [hids]
    exact h.names
  · rw [hids]
    exact h.given
  · rw [hext]
    exact h.keytags
  · rw [hext, hids]
    exact h.attrs
  · rw [hlinks, hids]
    exact h.links
  · rw [hgroups, hids]
    exact h.groups

theorem updateElement (c : ElementColumns) : Sound typeName (t.updateElement id c) :=
  h.of_identities (t.identities_updateElement id c) rfl rfl rfl

theorem setStatus (status : Nat → String → String) : Sound typeName (t.setStatus status) :=
  h.of_identities (t.identities_setStatus status) rfl rfl rfl

theorem insertElement {e : ElementRow} (hid : e.id ≠ 0) (hname : e.name ≠ "")
    (hnew : ∀ e' ∈ t.elements, e'.id ≠ e.id ∧ e'.name ≠ e.name) :
    Sound typeName (t.insertElement e) := by
  -- the new id and the new name are those of no element
  have hfresh : ∀ e' ∈ t.identities, e'.id ≠ e.id ∧ e'.name ≠ e.name := by
    intro _ he'
    obtain ⟨e', hmem, rfl⟩ := List.mem_map.mp he'
    exact hnew e' hmem
  have hold : t.identities ⊆ t.identities ++ [e.identity] := List.subset_append_left _ _
  constructor
  · rw [t.identities_insertElement, List.map_append, List.nodup_append]
    refine ⟨h.ids, List.nodup_singleton _, ?_⟩
    intro i hi j hj heq
    obtain ⟨e', he', rfl⟩ := List.mem_map.mp hi
    exact (hfresh e' he').1 (heq.trans (List.mem_singleton.mp hj))
  · rw [t.identities_insertElement, List.map_append, List.nodup_append]
    refine ⟨h.names, List.nodup_singleton _, ?_⟩
    intro i hi j hj heq
    obtain ⟨e', he', rfl⟩ := List.mem_map.mp hi
    exact (hfresh e' he').2 (heq.trans (List.mem_singleton.mp hj))
  · intro e' he'
    rw [t.identities_insertElement] at he'
    rcases List.mem_append.mp he' with he' | he'
    · exact h.given e' he'
    · obtain rfl := List.mem_singleton.mp he'
      exact ⟨hid, hname⟩
  · exact h.keytags
  · intro id row hrow
    rw [t.identities_insertElement]
    exact (h.attrs id row hrow).mono hold
  · intro id link hlink
    rw [t.identities_insertElement]
    obtain ⟨e', he', hsrc⟩ := h.links id link hlink
    exact ⟨e', hold he', hsrc⟩
  · intro id group hgroup
    rw [t.identities_insertElement]
    obtain ⟨e', he', heq⟩ := h.groups id group hgroup
    exact ⟨e', hold he', heq⟩

/-- The attributes of one element are changed. -/
theorem updateExt {rows : List ExtRow} (hnd : (rows.map ExtRow.keytag).Nodup)
    (hrows : ∀ row ∈ rows, AttrOk typeName t.identities id row) :
    Sound typeName { t with ext := Function.update t.ext id rows } where
  ids := h.ids
  names := h.names
  given := h.given
  keytags := (Function.forall_update_iff t.ext fun _ rows ↦
    (rows.map ExtRow.keytag).Nodup).mpr ⟨hnd, fun id' _ ↦ h.keytags id'⟩
  attrs := (Function.forall_update_iff t.ext fun id' rows ↦
    ∀ row ∈ rows, AttrOk typeName t.identities id' row).mpr ⟨hrows, fun id' _ ↦ h.attrs id'⟩
  links := h.links
  groups := h.groups

theorem deleteExt (readOnly : Bool) : Sound typeName (t.deleteExt id readOnly) := by
  apply h.updateExt
  · exact (h.keytags id).sublist (List.filter_sublist.map _)
  · intro row hrow
    exact h.attrs id row (List.mem_of_mem_filter hrow)

theorem insertExt {attrs : List (String × String)} {readOnly : Bool}
    (hattrs : ∀ attr ∈ attrs, AttrOk typeName t.identities id ⟨attr.1, attr.2, readOnly⟩) :
    Sound typeName (t.insertExt id attrs readOnly) := by
  apply h.updateExt
  · exact foldl_upsert_nodup (h.keytags id)
  · intro row hrow
    -- a row is from before, or one of those that are written
    rcases mem_foldl_upsert hrow with hold | ⟨hmem, hro⟩
    · exact h.attrs id row hold
    · have hrow := hattrs _ hmem
      rwa [← hro] at hrow

theorem updateGroups {groups : List Nat} (hgroups : ∀ g ∈ groups, ∃ e ∈ t.identities, e.id = g) :
    Sound typeName { t with groups := Function.update t.groups id groups } where
  ids := h.ids
  names := h.names
  given := h.given
  keytags := h.keytags
  attrs := h.attrs
  links := h.links
  groups := (Function.forall_update_iff t.groups fun _ groups ↦
    ∀ g ∈ groups, ∃ e ∈ t.identities, e.id = g).mpr ⟨hgroups, fun id' _ ↦ h.groups id'⟩

theorem deleteGroups : Sound typeName (t.deleteGroups id) :=
  h.updateGroups fun _ hg ↦ absurd hg List.not_mem_nil

theorem insertGroups {groups : List Nat} (hgroups : ∀ g ∈ groups, ∃ e ∈ t.identities, e.id = g) :
    Sound typeName (t.insertGroups groups id) := by
  apply h.updateGroups
  intro g hg
  rcases List.mem_append.mp hg with hg | hg
  · exact h.groups id g hg
  · exact hgroups g hg

theorem updateLinks {links : Nat → List Link}
    (hlinks : ∀ id, ∀ link ∈ links id, ∃ e ∈ t.identities, e.id = link.src) :
    Sound typeName { t with links } where
  ids := h.ids
  names := h.names
  given := h.given
  keytags := h.keytags
  attrs := h.attrs
  links := hlinks
  groups := h.groups

theorem deleteLinks : Sound typeName (t.deleteLinks id) := by
  apply h.updateLinks
  apply (Function.forall_update_iff t.links fun _ links ↦
    ∀ link ∈ links, ∃ e ∈ t.identities, e.id = link.src).mpr
  exact ⟨fun _ hlink ↦ absurd hlink List.not_mem_nil, fun id' _ ↦ h.links id'⟩

theorem insertLinks {links : List Link}
    (hlinks : ∀ link ∈ links, ∃ e ∈ t.identities, e.id = link.src) :
    Sound typeName (t.insertLinks links) := by
  apply h.updateLinks
  intro id' link hlink
  rcases List.mem_append.mp hlink with hlink | hlink
  · exact h.links id' link hlink
  · exact hlinks link (List.mem_of_mem_filter hlink)

end Sound

theorem named_insertExt {attrs : List (String × String)} {readOnly : Bool} {id' : Nat} :
    (t.insertExt id attrs readOnly).Named id' ↔
      t.Named id' ∨ id' = id ∧ "name" ∈ attrs.map Prod.fst := by
  show "name" ∈ (Function.update t.ext id _ id').map ExtRow.keytag ↔ _
  by_cases hid : id' = id
  · subst hid
    rw [Function.update_self, mem_keytags_foldl_upsert]
    simp [Tables.Named]
  · rw [Function.update_of_ne hid]
    simp [Tables.Named, hid]

namespace Keeps

variable (h : Keeps typeName ids t)
include h

theorem of_sound {t' : Tables} (hids : t'.identities = t.identities) (hext : t'.ext = t.ext)
    (hsound : Sound typeName t') : Keeps typeName ids t' where
  identities := hids.trans h.identities
  sound := hsound
  named e he := by
    unfold Tables.Named
    rw [hext]
    exact h.named e he

theorem updateElement (c : ElementColumns) : Keeps typeName ids (t.updateElement id c) :=
  h.of_sound (t.identities_updateElement id c) rfl (h.sound.updateElement c)

theorem setStatus (status : Nat → String → String) : Keeps typeName ids (t.setStatus status) :=
  h.of_sound (t.identities_setStatus status) rfl (h.sound.setStatus status)

theorem insertExt {attrs : List (String × String)} {readOnly : Bool}
    (hattrs : ∀ attr ∈ attrs, AttrOk typeName ids id ⟨attr.1, attr.2, readOnly⟩) :
    Keeps typeName ids (t.insertExt id attrs readOnly) where
  identities := h.identities
  sound := h.sound.insertExt (by
    rw [h.identities]
    exact hattrs)
  named e he := named_insertExt.mpr (Or.inl (h.named e he))

/-- The old attributes may hold the external name, as the new ones do. -/
theorem replaceExt {attrs : List (String × String)} (hname : "name" ∈ attrs.map Prod.fst)
    (hattrs : ∀ attr ∈ attrs, AttrOk typeName ids id ⟨attr.1, attr.2, false⟩) :
    Keeps typeName ids ((t.deleteExt id false).insertExt id attrs false) where
  identities := h.identities
  sound := (h.sound.deleteExt false).insertExt (by
    show ∀ attr ∈ attrs, AttrOk typeName t.identities id _
    rw [h.identities]
    exact hattrs)
  named e he := by
    apply named_insertExt.mpr
    -- only this element loses its old attributes, and it gets a name again
    by_cases hid : e.id = id
    · exact Or.inr ⟨hid, hname⟩
    · have hold := h.named e he
      apply Or.inl
      show "name" ∈ (Function.update t.ext id _ e.id).map ExtRow.keytag
      rw [Function.update_of_ne hid]
      exact hold

theorem deleteGroups : Keeps typeName ids (t.deleteGroups id) :=
  h.of_sound rfl rfl h.sound.deleteGroups

theorem insertGroups {groups : List Nat} (hgroups : ∀ g ∈ groups, ∃ e ∈ ids, e.id = g) :
    Keeps typeName ids (t.insertGroups groups id) := by
  refine h.of_sound rfl rfl (h.sound.insertGroups ?_)
  rw [h.identities]
  exact hgroups

theorem deleteLinks : Keeps typeName ids (t.deleteLinks id) :=
  h.of_sound rfl rfl h.sound.deleteLinks

theorem insertLinks {links : List Link} (hlinks : ∀ link ∈ links, ∃ e ∈ ids, e.id = link.src) :
    Keeps typeName ids (t.insertLinks links) := by
  refine h.of_sound rfl rfl (h.sound.insertLinks ?_)
  rw [h.identities]
  exact hlinks

/-- A new element has its external name with its attributes. -/
theorem insertElement {e : ElementRow} {attrs : List (String × String)} (hid : e.id ≠ 0)
    (hgiven : e.name ≠ "") (hnew : ∀ e' ∈ t.elements, e'.id ≠ e.id ∧ e'.name ≠ e.name)
    (hname : "name" ∈ attrs.map Prod.fst)
    (hattrs : ∀ attr ∈ attrs,
      AttrOk typeName (ids ++ [e.identity]) e.id ⟨attr.1, attr.2, false⟩) :
    Keeps typeName (ids ++ [e.identity]) ((t.insertElement e).insertExt e.id attrs false) where
  identities := by
    show (t.insertElement e).identities = _
    rw [t.identities_insertElement, h.identities]
  sound := (h.sound.insertElement hid hgiven hnew).insertExt (by
    rw [t.identities_insertElement, h.identities]
    exact hattrs)
  named e' he' := by
    apply named_insertExt.mpr
    rcases List.mem_append.mp he' with he' | he'
    · exact Or.inl (h.named e' he')
    · obtain rfl := List.mem_singleton.mp he'
      exact Or.inr ⟨rfl, hname⟩

end Keeps

/-! ## The functions of `asset_general.cc` -/

section

variable {σ : Type} {db : AssetsDb σ} {act : AssetActivator σ} {tables : σ → Tables}
  {tools : Tools} {s s' : σ} {a : AssetWrite} {elementId : Nat}

theorem updateElement_keeps (hdb : TablesLaws db act tables) (ha : WriteOk typeName ids elementId a)
    (hs : Keeps typeName ids (tables s)) {errmsg : String}
    (h : updateElement db tools s elementId a = .ok (s', errmsg)) :
    Keeps typeName ids (tables s') := by
  rw [updateElement_tables hdb h]
  exact (hs.updateElement _).replaceExt ha.named ha.ext

theorem updateElementRO_keeps (hdb : TablesLaws db act tables)
    {ro : Option (List (String × String))} {readOnly : Bool}
    (hro : ∀ attrs, ro = some attrs → ∀ attr ∈ attrs,
      AttrOk typeName ids elementId ⟨attr.1, attr.2, readOnly⟩)
    (hs : Keeps typeName ids (tables s)) {errmsg errmsg' : String}
    (h : updateElementRO db tools s elementId ro readOnly errmsg = .ok (s', errmsg')) :
    Keeps typeName ids (tables s') := by
  rcases updateElementRO_tables hdb h with ⟨-, heq⟩ | ⟨attrs, hattrs, heq⟩
  · rw [heq]
    exact hs
  · rw [heq]
    exact hs.insertExt (hro attrs hattrs)

theorem updateDeviceBody_keeps (hdb : TablesLaws db act tables)
    (ha : WriteOk typeName ids elementId a) (hs : Keeps typeName ids (tables s)) {errmsg : String}
    (h : updateDeviceBody db tools s elementId a = .ok (s', errmsg)) :
    Keeps typeName ids (tables s') := by
  simp only [updateDeviceBody, bind_eq_ok, pure_eq_ok, require_eq_ok, Prod.exists,
    Prod.mk.injEq] at h
  obtain ⟨-, -, s₁, errmsg₁, hupdate, s₂, errmsg₂, hro, -, hret4, -, hret5, -, hret6, -, hret7,
    rfl, -⟩ := h
  have hs₂ := updateElementRO_keeps hdb ha.ro (updateElement_keeps hdb ha hs hupdate) hro
  rw [hdb.insertLinks _ _ hret7, hdb.deleteLinks _ _ hret6, hdb.insertGroups _ _ _ hret5,
    hdb.deleteGroups _ _ hret4]
  apply ((hs₂.deleteGroups.insertGroups ha.groups).deleteLinks).insertLinks
  intro link hlink
  obtain ⟨old, hold, rfl⟩ := List.mem_map.mp hlink
  exact ha.links old hold

theorem updateDcRoomRowRackGroupBody_keeps (hdb : TablesLaws db act tables)
    (ha : WriteOk typeName ids elementId a) (hs : Keeps typeName ids (tables s)) {errmsg : String}
    (h : updateDcRoomRowRackGroupBody db tools s elementId a = .ok (s', errmsg)) :
    Keeps typeName ids (tables s') := by
  simp only [updateDcRoomRowRackGroupBody, bind_eq_ok, pure_eq_ok, require_eq_ok, Prod.exists,
    Prod.mk.injEq] at h
  obtain ⟨-, -, s₁, errmsg₁, hupdate, s₂, errmsg₂, hro, -, hret4, -, hret5, rfl, -⟩ := h
  -- what is written in place of the read-only attributes are the others once more
  have hext : ∀ attrs, (a.extattributesRO.map fun _ ↦ a.extattributes) = some attrs →
      ∀ attr ∈ attrs, AttrOk typeName ids elementId ⟨attr.1, attr.2, false⟩ := by
    intro attrs hattrs
    obtain ⟨-, -, rfl⟩ := Option.map_eq_some_iff.mp hattrs
    exact ha.ext
  have hs₂ := updateElementRO_keeps hdb hext (updateElement_keeps hdb ha hs hupdate) hro
  rw [hdb.insertGroups _ _ _ (hdb.allGroups hret5), hdb.deleteGroups _ _ hret4]
  exact hs₂.deleteGroups.insertGroups ha.groups

theorem updateDevice_keeps (hdb : TablesLaws db act tables) (ha : WriteOk typeName ids elementId a)
    (hs : Keeps typeName ids (tables s)) :
    Keeps typeName ids (tables (updateDevice db tools s elementId a).1) := by
  unfold updateDevice
  cases h : updateDeviceBody db tools s elementId a with
  | error ret => exact hs
  | ok r => exact updateDeviceBody_keeps hdb ha hs h

theorem updateDcRoomRowRackGroup_keeps (hdb : TablesLaws db act tables)
    (ha : WriteOk typeName ids elementId a) (hs : Keeps typeName ids (tables s)) :
    Keeps typeName ids (tables (updateDcRoomRowRackGroup db tools s elementId a).1) := by
  unfold updateDcRoomRowRackGroup
  cases h : updateDcRoomRowRackGroupBody db tools s elementId a with
  | error ret => exact hs
  | ok r => exact updateDcRoomRowRackGroupBody_keeps hdb ha hs h

/-! ## Insertions -/

theorem insertElementRO_keeps (hdb : TablesLaws db act tables)
    {ro : Option (List (String × String))}
    (hro : ∀ attrs, ro = some attrs → ∀ attr ∈ attrs,
      AttrOk typeName ids elementId ⟨attr.1, attr.2, true⟩)
    (hs : Keeps typeName ids (tables s)) (h : insertElementRO db tools s elementId ro = .ok s') :
    Keeps typeName ids (tables s') := by
  cases ro with
  | none =>
    simp only [insertElementRO, pure_eq_ok] at h
    rw [← h]
    exact hs
  | some attrs =>
    simp only [insertElementRO, bind_eq_ok, pure_eq_ok, require_eq_ok] at h
    obtain ⟨-, hinsert, rfl⟩ := h
    rw [hdb.insertExt _ _ _ _ _ hinsert]
    exact hs.insertExt (hro attrs rfl)

/-- The new element is behind the old ones. -/
theorem insertElement_keeps (hdb : TablesLaws db act tables)
    (ha : ∀ e : Identity, e.typeId = a.elementTypeId → WriteOk typeName (ids ++ [e]) e.id a)
    (hs : Keeps typeName ids (tables s)) {iname : String} {reply : DbReply}
    (h : insertElement db tools s a iname = .ok (s', reply)) :
    ∃ e : Identity, e.typeId = a.elementTypeId ∧ Keeps typeName (ids ++ [e]) (tables s') := by
  simp only [insertElement, bind_eq_ok, pure_eq_ok, require_eq_ok, Prod.mk.injEq] at h
  obtain ⟨-, hinsert1, -, hinsert2, s₁, hro, -, hinsert3, rfl, -⟩ := h
  obtain ⟨e, hrowid, htype, hid, hgiven, hnew, htables⟩ := hdb.insertElement _ _ _ _ hinsert1
  rw [← hrowid] at hro hinsert2 hinsert3 ⊢
  have he := ha e.identity htype
  refine ⟨e.identity, htype, ?_⟩
  -- the element and its attributes are one step here: between the two it has no name
  have hext := hs.insertElement hid hgiven hnew he.named he.ext
  rw [← htables, ← hdb.insertExt _ _ _ _ _ hinsert2] at hext
  rw [hdb.insertGroups _ _ _ (hdb.allGroups hinsert3)]
  exact (insertElementRO_keeps hdb he.ro hext hro).insertGroups he.groups

theorem insertDcRoomRowRackGroup_keeps (hdb : TablesLaws db act tables)
    (ha : ∀ e : Identity, e.typeId = a.elementTypeId → WriteOk typeName (ids ++ [e]) e.id a)
    (hs : Keeps typeName ids (tables s)) :
    ∃ ids', Keeps typeName ids' (tables (insertDcRoomRowRackGroup db tools s a).1) := by
  unfold insertDcRoomRowRackGroup
  cases h : insertDcRoomRowRackGroupBody db tools s a with
  | error reply => exact ⟨ids, hs⟩
  | ok r =>
    simp only [insertDcRoomRowRackGroupBody, bind_eq_ok, Prod.exists] at h
    obtain ⟨-, -, -, -, s₁, reply₁, hinsert, h⟩ := h
    have ha' (e : Identity) (he : e.typeId = a.elementTypeId) :
        WriteOk typeName (ids ++ [e]) e.id { a with subtypeId := 0 } :=
      ⟨(ha e he).ext, (ha e he).named, (ha e he).ro, (ha e he).groups, (ha e he).links⟩
    obtain ⟨e, -, hs₁⟩ := insertElement_keeps hdb ha' hs hinsert
    refine ⟨ids ++ [e], ?_⟩
    split at h
    · simp only [bind_eq_ok, pure_eq_ok] at h
      obtain ⟨s₂, hmonitor, rfl⟩ := h
      show Keeps typeName (ids ++ [e]) (tables s₂)
      -- the monitor's tables are not among those of the assets
      rw [insertMonitor_tables hdb hmonitor]
      exact hs₁
    · rw [pure_eq_ok] at h
      obtain rfl := h
      exact hs₁

theorem insertDevice_keeps (hdb : TablesLaws db act tables)
    (ha : ∀ e : Identity, e.typeId = AssetType.device → WriteOk typeName (ids ++ [e]) e.id a)
    (hs : Keeps typeName ids (tables s)) :
    ∃ ids', Keeps typeName ids' (tables (insertDevice db tools s a).1) := by
  unfold insertDevice
  cases h : insertDeviceBody db tools s a with
  | error reply => exact ⟨ids, hs⟩
  | ok r =>
    simp only [insertDeviceBody, bind_eq_ok, require_eq_ok, Prod.exists] at h
    obtain ⟨-, -, s₁, reply₁, hinsert, -, hlinks, h⟩ := h
    have ha' (e : Identity) (he : e.typeId = AssetType.device) :
        WriteOk typeName (ids ++ [e]) e.id { a with elementTypeId := AssetType.device } :=
      ⟨(ha e he).ext, (ha e he).named, (ha e he).ro, (ha e he).groups, (ha e he).links⟩
    -- the element comes first, then its links lead to it, and the monitor tables are apart
    obtain ⟨e, he, hs₁⟩ := insertElement_keeps hdb ha' hs hinsert
    refine ⟨ids ++ [e], ?_⟩
    have hs₂ : Keeps typeName (ids ++ [e]) ((tables s₁).insertLinks
        (a.links.map fun link ↦ { link with dest := reply₁.rowid })) := by
      apply hs₁.insertLinks
      intro link hlink
      obtain ⟨old, hold, rfl⟩ := List.mem_map.mp hlink
      exact (ha e he).links old hold
    rw [← hdb.insertLinks _ _ hlinks] at hs₂
    split at h
    · simp only [bind_eq_ok, pure_eq_ok] at h
      obtain ⟨s₃, hmonitor, rfl⟩ := h
      show Keeps typeName (ids ++ [e]) (tables s₃)
      rw [insertMonitor_tables hdb hmonitor]
      exact hs₂
    · simp only [bind_eq_ok, pure_eq_ok] at h
      obtain ⟨-, -, rfl⟩ := h
      exact hs₂

end

end FtyRest.Db
