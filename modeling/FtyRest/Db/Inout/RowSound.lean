import FtyRest.Db.Inout.RowColumns
import FtyRest.Db.TablesSound

/-!
# The tables after an import

A row of a table that is imported asks only for what is fit to be written, so that the tables stay
sound over any series of rows.
-/

namespace FtyRest.Db

open Shared Checks

/-- How an import calls `process_row`: the titles are those of a table, the names are looked up,
and the types are those of the database. -/
structure ImportArgs (typeName : Nat → String) (i : RowInput) : Prop where
  cm : ∃ cm : CsvMap, cm.titleToIndex = [] ∧ cm.deserialize = .ok i.cm
  sanitize : i.sanitize = true
  types : ∀ type id, i.types.lookup type = some id → id < 2 ^ 16 ∧ typeName id = type

/-- What the row asks for is fit to be written. -/
structure PlanOk (typeName : Nat → String) (ids : List Identity) (plan : RowPlan) : Prop where
  typeId : plan.typeId < 2 ^ 16 ∧ typeName plan.typeId = plan.type
  title : ∀ attr ∈ plan.ext, ciStrip attr.1 = attr.1
  element : ∀ attr ∈ plan.ext, attr.1 ∈ assetElementKeytags → attr.1 = "name" ∨ attr.1 = "type"
  type : ∀ attr ∈ plan.ext, attr.1 = "type" → ciStrip attr.2 = attr.2 ∧ plan.type = "group"
  logicalAsset : ∀ attr ∈ plan.ext, attr.1 = "logical_asset" → ∃ e ∈ ids, e.name = attr.2
  named : "name" ∈ plan.ext.map Prod.fst
  groups : ∀ group ∈ plan.groups, ∃ e ∈ ids, e.id = group
  links : ∀ link ∈ plan.links, ∃ e ∈ ids, e.id = link.src
  inDb : plan.idStr ≠ "" → ∃ e ∈ ids, e.id = uint32 plan.id ∧ e.typeId = plan.typeId

section

variable {σ : Type} {db : AssetsDb σ} {act : AssetActivator σ} {tables : σ → Tables}
  {tools : Tools} {s : σ} {i : RowInput} {plan : RowPlan} {names : List (String × String)}
  {typeName : Nat → String}

/-! ## What is found -/

theorem exists_identity {e : ElementRow} {t : Tables} {p : Identity → Prop} (he : e ∈ t.elements)
    (hp : p e.identity) : ∃ e ∈ t.identities, p e :=
  ⟨e.identity, List.mem_map_of_mem he, hp⟩

theorem findElement_ok {name : String} {notFound : Thrown} {id : Nat}
    (h : findElement db s name notFound = .ok id) :
    db.rowByName s name = .ok (some id) ∨ db.rowByExtname s name = .ok (some id) := by
  unfold findElement selectAssetElementByName at h
  split at h
  · rename_i id' hselect
    obtain rfl := Except.ok.inj h
    split at hselect
    · simp at hselect
    · -- the external name is looked up only where the internal one finds nothing
      cases hname : db.rowByName s name with
      | error e =>
        rw [hname] at hselect
        simp at hselect
      | ok found =>
        rw [hname] at hselect
        cases found with
        | some id =>
          obtain rfl := Except.ok.inj hselect
          exact Or.inl rfl
        | none =>
          apply Or.inr
          dsimp only at hselect
          cases hextname : db.rowByExtname s name with
          | error e =>
            rw [hextname] at hselect
            simp at hselect
          | ok found' =>
            rw [hextname] at hselect
            cases found' with
            | some id =>
              obtain rfl := Except.ok.inj hselect
              rfl
            | none => simp at hselect
  · simp at h
  · simp at h

theorem findElement_there (hdb : TablesLaws db act tables) {name : String} {notFound : Thrown}
    {id : Nat} (h : findElement db s name notFound = .ok id) :
    ∃ e ∈ (tables s).identities, e.id = id := by
  rcases findElement_ok h with h | h
  · obtain ⟨e, he, hid, -⟩ := hdb.rowByName s name id h
    exact exists_identity he hid
  · obtain ⟨⟨e, he, hid⟩, -⟩ := hdb.rowByExtname s name id h
    exact exists_identity he hid

/-- A text that is looked up in the way of `sanitize_row_ext_names`, and found. -/
theorem sanitized_there (hdb : TablesLaws db act tables) {value : String} {notFound : Thrown}
    {id : Nat}
    (h : findElement db s (if (db.extnameToAssetName s value).1 ≠ 0 then value
      else (db.extnameToAssetName s value).2) notFound = .ok id) :
    ∃ e ∈ (tables s).identities, e.name = if (db.extnameToAssetName s value).1 ≠ 0 then value
      else (db.extnameToAssetName s value).2 := by
  by_cases hrv : (db.extnameToAssetName s value).1 = 0
  · rw [if_neg (not_not_intro hrv)]
    obtain ⟨e, he, hname⟩ := hdb.extname s value hrv
    exact exists_identity he hname
  · rw [if_pos hrv] at h ⊢
    rcases findElement_ok h with h | h
    · obtain ⟨e, he, -, hname⟩ := hdb.rowByName s value id h
      exact exists_identity he hname
    · -- an external name is not left as it is
      exact absurd (hdb.rowByExtname s value id h).2 hrv

/-! ## What is read -/

/-- The columns of the elements are all used. -/
theorem elementKeytags_used : assetElementKeytags ⊆
    ["create_mode", "id", "name", "type", "status", "asset_tag", "priority", "location",
      "sub_type"] := by
  decide

theorem mem_unusedColumns {idStr key : String} (h : key ∈ unusedColumns i idStr) :
    key ∈ i.titles ∧ key ∉ assetElementKeytags := by
  unfold unusedColumns at h
  obtain ⟨htitle, hkey⟩ := List.mem_filter.mp h
  simp only [decide_eq_true_eq, List.append_assoc] at hkey
  exact ⟨htitle, fun hmem ↦ hkey.1 (List.mem_append_left _ (elementKeytags_used hmem))⟩

theorem sanitize_logicalAsset (hi : i.sanitize = true)
    (h : sanitizeRowExtNames db s i = .ok names) {v : String}
    (hv : names.lookup "logical_asset" = some v) :
    ∃ value, v = if (db.extnameToAssetName s value).1 ≠ 0 then value
      else (db.extnameToAssetName s value).2 := by
  simp only [sanitizeRowExtNames, bind_eq_ok, pure_eq_ok, hi, if_true] at h
  obtain ⟨result, -, rfl⟩ := h
  obtain ⟨l₁, l₂, hsplit, -⟩ := List.lookup_eq_some_iff.mp hv
  have hmem : ("logical_asset", v) ∈ l₁ ++ ("logical_asset", v) :: l₂ := by simp
  rw [← hsplit] at hmem
  obtain ⟨⟨title, value⟩, -, heq⟩ := List.mem_map.mp hmem
  refine ⟨value, ?_⟩
  dsimp only at heq
  split at heq
  · exact (Prod.mk.inj heq).2.symm
  · rename_i hnot
    obtain ⟨rfl, -⟩ := Prod.mk.inj heq
    exact absurd (by simp) hnot

theorem extAttribute_logicalAsset (hdb : TablesLaws db act tables) (hi : i.sanitize = true)
    (hnames : sanitizeRowExtNames db s i = .ok names) {attr : String × String}
    (h : extAttribute db tools s i names "logical_asset" = .ok (some attr)) :
    ∃ e ∈ (tables s).identities, e.name = attr.2 := by
  obtain ⟨cell, value, hvalue, hmatch, -⟩ := extAttribute_some h
  have hattr : value ≠ "" ∧ value = attr.2 := by
    unfold matchExtAttr at hmatch
    rw [if_neg (by decide)] at hmatch
    split at hmatch
    · exact ⟨‹_›, Option.some.inj hmatch⟩
    · simp at hmatch
  unfold checkedValue at hvalue
  by_cases hcell : cell = ""
  · -- an empty cell gives no attribute
    simp only [hcell] at hvalue
    exact absurd (Except.ok.inj hvalue).symm hattr.1
  · rw [if_pos ⟨rfl, hcell⟩] at hvalue
    simp only [bind_eq_ok, pure_eq_ok] at hvalue
    obtain ⟨id, hfind, hvalue⟩ := hvalue
    rw [← hattr.2, ← hvalue]
    cases hlookup : names.lookup "logical_asset" with
    | none =>
      rw [hlookup] at hvalue
      exact absurd hvalue.symm hattr.1
    | some v =>
      rw [hlookup] at hfind
      obtain ⟨text, rfl⟩ := sanitize_logicalAsset hi hnames hlookup
      exact sanitized_there hdb hfind

theorem rowGroups_there (hdb : TablesLaws db act tables) {groups : List Nat}
    (h : rowGroups db s i names = .ok groups) {group : Nat} (hg : group ∈ groups) :
    ∃ e ∈ (tables s).identities, e.id = group := by
  simp only [rowGroups, bind_eq_ok, pure_eq_ok] at h
  obtain ⟨found, hfound, rfl⟩ := h
  obtain ⟨o, ho, rfl⟩ := List.mem_filterMap.mp (List.mem_dedup.mp hg)
  obtain ⟨title, -, htitle⟩ := mapM_ok_mem hfound ho
  split at htitle
  · simp at htitle
  · obtain ⟨id, hid, heq⟩ := map_eq_ok.mp htitle
    obtain rfl : id = group := Option.some.inj heq
    exact findElement_there hdb hid

theorem rowLink_there (hdb : TablesLaws db act tables) {ename type : String} {index : Nat}
    {link : Link} (h : rowLink db s i names ename type index = .ok (some link)) :
    ∃ e ∈ (tables s).identities, e.id = link.src := by
  unfold rowLink at h
  dsimp only at h
  split at h
  · simp at h
  · split at h
    · -- no source gives no link
      simp only [bind_eq_ok, pure_eq_ok] at h
      obtain ⟨src, rfl, h⟩ := h
      rw [if_neg fun h' ↦ h'.1 rfl] at h
      simp at h
    · simp only [bind_eq_ok, pure_eq_ok] at h
      obtain ⟨src, hsrc, h⟩ := h
      split at h
      · obtain rfl := Option.some.inj h
        exact findElement_there hdb hsrc
      · simp at h

theorem rowLinks_there (hdb : TablesLaws db act tables) {ename type : String} {links : List Link}
    (h : rowLinks db s i names ename type = .ok links) {link : Link} (hl : link ∈ links) :
    ∃ e ∈ (tables s).identities, e.id = link.src := by
  simp only [rowLinks, bind_eq_ok, pure_eq_ok] at h
  obtain ⟨found, hfound, rfl⟩ := h
  obtain ⟨o, ho, rfl⟩ := List.mem_filterMap.mp hl
  obtain ⟨index, -, hindex⟩ := mapM_ok_mem hfound ho
  exact rowLink_there hdb hindex

/-- An attribute is the name, comes from a column that is not used, or is the type of a group. -/
theorem mem_rowExtAttributes {idStr ename type subtype : String} {ext : List (String × String)}
    (h : rowExtAttributes db tools s i names idStr ename type subtype = .ok ext)
    {attr : String × String} (ha : attr ∈ ext) :
    attr.1 = "name" ∨ attr = ("type", subtype) ∧ type = "group" ∨
      ∃ key ∈ unusedColumns i idStr, extAttribute db tools s i names key = .ok (some attr) := by
  simp only [rowExtAttributes, bind_eq_ok, pure_eq_ok] at h
  obtain ⟨found, hfound, rfl⟩ := h
  rcases List.mem_cons.mp ha with rfl | ha
  · exact Or.inl rfl
  · rcases List.mem_append.mp ha with ha | ha
    · obtain ⟨o, ho, rfl⟩ := List.mem_filterMap.mp ha
      exact Or.inr (Or.inr (mapM_ok_mem hfound ho))
    · split at ha
      · rename_i hgroup
        exact Or.inr (Or.inl ⟨List.mem_singleton.mp ha, hgroup⟩)
      · exact absurd ha List.not_mem_nil

theorem rowSubtype_normalised {type subtype : String} {rackControllerId subtypeId : Nat}
    (h : rowSubtype tools i type = .ok (rackControllerId, subtypeId, subtype)) :
    ciStrip subtype = subtype := by
  simp only [rowSubtype, bind_eq_ok, pure_eq_ok, Prod.mk.injEq] at h
  obtain ⟨text, htext, -, -, -, -, -, -, rfl⟩ := h
  rw [RowInput.cellStrip, mapError_eq_ok, CsvMap.getStrip, map_eq_ok] at htext
  obtain ⟨cell, -, rfl⟩ := htext
  exact ciStrip_ciStrip cell

theorem checkInDb_there (hdb : TablesLaws db act tables) {idStr : String} {id : Int}
    {typeId subtypeId : Nat} (hid : idStr ≠ "")
    (h : checkInDb db s idStr id typeId subtypeId = .ok ()) :
    ∃ e ∈ (tables s).identities, e.id = uint32 id ∧ e.typeId = typeId := by
  unfold checkInDb at h
  rw [if_neg hid] at h
  cases hselect : db.selectAssetElementWebById s (uint32 id) with
  | error e =>
    rw [hselect] at h
    split at h <;> simp_all
  | ok element =>
    rw [hselect] at h
    simp only [bind_eq_ok, require_eq_ok] at h
    obtain ⟨-, htype, -⟩ := h
    obtain ⟨e, he, hid', htype'⟩ := hdb.select s (uint32 id) element hselect
    exact exists_identity (p := fun e ↦ e.id = uint32 id ∧ e.typeId = typeId) he
      ⟨hid', htype'.trans htype⟩

theorem ReadSteps.planOk (hdb : TablesLaws db act tables) (hi : ImportArgs typeName i)
    (h : ReadSteps db tools s i names plan) : PlanOk typeName (tables s).identities plan where
  typeId := by
    have htype := h.type
    simp only [rowType, bind_eq_ok, pure_eq_ok, orThrow_eq_ok, Prod.mk.injEq] at htype
    obtain ⟨type, -, typeId, hlookup, rfl, rfl⟩ := htype
    exact hi.types _ _ hlookup
  title attr ha := by
    -- the attributes of a row: its name, the type of a group, the columns that nothing else reads
    rcases mem_rowExtAttributes h.ext ha with hname | ⟨rfl, -⟩ | ⟨key, hkey, hattr⟩
    · rw [hname]
      decide
    · show ciStrip "type" = "type"
      decide
    · obtain ⟨-, -, -, -, rfl⟩ := extAttribute_some hattr
      obtain ⟨cm, hempty, hcm⟩ := hi.cm
      exact CsvMap.ciStrip_of_mem_getTitles hempty hcm (mem_unusedColumns hkey).1
  element attr ha hmem := by
    rcases mem_rowExtAttributes h.ext ha with hname | ⟨rfl, -⟩ | ⟨key, hkey, hattr⟩
    · exact Or.inl hname
    · exact Or.inr rfl
    · obtain ⟨-, -, -, -, rfl⟩ := extAttribute_some hattr
      exact absurd hmem (mem_unusedColumns hkey).2
  type attr ha htype := by
    rcases mem_rowExtAttributes h.ext ha with hname | ⟨rfl, hgroup⟩ | ⟨key, hkey, hattr⟩
    · rw [hname] at htype
      exact absurd htype (by decide)
    · exact ⟨rowSubtype_normalised h.subtype, hgroup⟩
    · obtain ⟨-, -, -, -, rfl⟩ := extAttribute_some hattr
      -- `type` is a column of the element, so no unused one
      rw [htype] at hkey
      exact absurd (by decide) (mem_unusedColumns hkey).2
  logicalAsset attr ha hkey := by
    rcases mem_rowExtAttributes h.ext ha with hname | ⟨rfl, -⟩ | ⟨key, -, hattr⟩
    · rw [hname] at hkey
      exact absurd hkey (by decide)
    · have hkey : "type" = "logical_asset" := hkey
      exact absurd hkey (by decide)
    · obtain ⟨-, -, -, -, rfl⟩ := extAttribute_some hattr
      rw [hkey] at hattr
      exact extAttribute_logicalAsset hdb hi.sanitize h.sanitized hattr
  named := by
    have hext := h.ext
    simp only [rowExtAttributes, bind_eq_ok, pure_eq_ok] at hext
    obtain ⟨found, -, hext⟩ := hext
    rw [← hext]
    exact List.mem_cons_self
  groups group hg := rowGroups_there hdb h.groups hg
  links link hl := rowLinks_there hdb h.links hl
  inDb hid := checkInDb_there hdb hid h.inDb

end

/-! ## What is written -/

section

variable {σ : Type} {db : AssetsDb σ} {act : AssetActivator σ} {tables : σ → Tables}
  {tools : Tools} {i : RowInput} {plan : RowPlan} {typeName : Nat → String}
  {ids ids' : List Identity} {w : World σ}

/-- The keytags of the read-only attributes are none that are looked up. -/
def PlainKeytags (attrs : List (String × String)) : Prop :=
  ∀ attr ∈ attrs, attr.1 ≠ "type" ∧ attr.1 ≠ "logical_asset"

/-- One attribute that is there under a condition. -/
theorem PlainKeytags.when {p : Prop} [Decidable p] {keytag value : String}
    (h : keytag ≠ "type" ∧ keytag ≠ "logical_asset") :
    PlainKeytags (if p then [(keytag, value)] else []) := by
  intro attr hattr
  split at hattr
  · rw [List.mem_singleton.mp hattr]
    exact h
  · exact absurd hattr List.not_mem_nil

theorem PlainKeytags.append {attrs attrs' : List (String × String)} (h : PlainKeytags attrs)
    (h' : PlainKeytags attrs') : PlainKeytags (attrs ++ attrs') :=
  List.forall_mem_append.mpr ⟨h, h'⟩

theorem updateRO_plain (cm : CsvMap) : PlainKeytags (updateRO cm) :=
  .append (.when (by decide)) (.when (by decide))

theorem insertRO_plain (cm : CsvMap) : PlainKeytags (insertRO cm) :=
  .append (.when (by decide)) (.when (by decide))

theorem PlanOk.writeOk (h : PlanOk typeName ids plan) (hids : ids ⊆ ids') {e : Identity}
    (he : e ∈ ids') (htype : plan.type = "group" → typeName e.typeId = "group") (name : String)
    {ro : List (String × String)} (hro : PlainKeytags ro) :
    WriteOk typeName ids' e.id (plan.write name ro) where
  ext attr ha := by
    constructor
    · exact fun _ ↦ h.title attr ha
    · exact fun _ ↦ h.element attr ha
    · intro hkey
      obtain ⟨hvalue, hgroup⟩ := h.type attr ha hkey
      exact ⟨hvalue, e, he, rfl, htype hgroup⟩
    · intro hkey
      obtain ⟨e', he', hname⟩ := h.logicalAsset attr ha hkey
      exact ⟨e', hids he', hname⟩
  named := h.named
  -- read-only attributes are plain: neither a type nor a logical asset
  ro attrs hattrs attr ha := by
    obtain rfl := Option.some.inj hattrs
    constructor
    · intro hro'
      exact Bool.noConfusion hro'
    · intro hro'
      exact Bool.noConfusion hro'
    · intro hkey
      exact absurd hkey (hro attr ha).1
    · intro hkey
      exact absurd hkey (hro attr ha).2
  groups group hg := by
    obtain ⟨e', he', heq⟩ := h.groups group hg
    exact ⟨e', hids he', heq⟩
  links link hl := by
    obtain ⟨e', he', heq⟩ := h.links link hl
    exact ⟨e', hids he', heq⟩

/-- The element that is updated is there, with the type of the row. -/
theorem PlanOk.updateOk (h : PlanOk typeName ids plan) (hid : plan.idStr ≠ "") (cm : CsvMap) :
    WriteOk typeName ids (uint32 plan.id) (plan.write plan.iname (updateRO cm)) := by
  obtain ⟨e, he, heq, htype⟩ := h.inDb hid
  rw [← heq]
  apply h.writeOk (List.Subset.refl ids) he
  · intro hgroup
    rw [htype, h.typeId.2, hgroup]
  · exact updateRO_plain cm

theorem PlanOk.insertOk (h : PlanOk typeName ids plan) {e : Identity}
    (htype : plan.type = "group" → typeName e.typeId = "group") (cm : CsvMap) :
    WriteOk typeName (ids ++ [e]) e.id (plan.write plan.ename (insertRO cm)) := by
  apply h.writeOk (List.subset_append_left _ _) _ htype
  · exact insertRO_plain cm
  · exact List.mem_append_right _ (List.mem_singleton_self e)

theorem deactivateAsset_keeps (hdb : TablesLaws db act tables)
    (h : Keeps typeName ids (tables w.store)) :
    Keeps typeName ids (tables (deactivateAsset db tools act w plan).1.store) := by
  unfold deactivateAsset
  split
  · cases hjson : db.getJsonAsset w.store (uint32 plan.id) with
    | error what => exact h
    | ok assetJson =>
      obtain ⟨status, hstatus⟩ := hdb.deactivate w assetJson
      rcases hdone : act.deactivate w assetJson with ⟨w', r⟩
      rw [hdone] at hstatus
      have hw' : Keeps typeName ids (tables w'.store) := by
        rw [hstatus]
        exact h.setStatus status
      dsimp only
      rw [hdone]
      cases r with
      | error what => exact hw'
      | ok u => exact hw'
  · exact h

theorem activateAsset_keeps (hdb : TablesLaws db act tables) {idStr : String} {id : Nat}
    (h : Keeps typeName ids (tables w.store)) :
    Keeps typeName ids (tables (activateAsset db act w idStr id).1.store) := by
  unfold activateAsset
  cases hjson : db.getJsonAsset w.store id with
  | error what => exact h
  | ok assetJson =>
    obtain ⟨status, hstatus⟩ := hdb.activate w assetJson
    dsimp only
    rcases hdone : act.activate w assetJson with ⟨w', r⟩
    rw [hdone] at hstatus
    have hw' : Keeps typeName ids (tables w'.store) := by
      rw [hstatus]
      exact h.setStatus status
    cases r with
    | error what => exact hw'
    | ok u => exact hw'

theorem updateOtherDevice_keeps (hdb : TablesLaws db act tables) (hplan : PlanOk typeName ids plan)
    (hid : plan.idStr ≠ "") (h : Keeps typeName ids (tables w.store)) :
    Keeps typeName ids (tables (updateOtherDevice db tools act i w plan).1.store) := by
  have hdeact : Keeps typeName ids (tables (deactivateAsset db tools act w plan).1.store) :=
    deactivateAsset_keeps hdb h
  unfold updateOtherDevice
  rcases hw₁ : deactivateAsset db tools act w plan with ⟨w₁, e | u⟩
  · rw [hw₁] at hdeact
    exact hdeact
  · rw [hw₁] at hdeact
    have hupdate : Keeps typeName ids (tables (updateDevice db tools w₁.store (uint32 plan.id)
        { plan.write plan.iname (updateRO i.cm) with status := "nonactive" }).1) :=
      updateDevice_keeps hdb ((hplan.updateOk hid i.cm).withStatus "nonactive") hdeact
    dsimp only
    split
    · exact hupdate
    · split
      · exact activateAsset_keeps hdb hupdate
      · exact hupdate

theorem updateRow_keeps (hdb : TablesLaws db act tables) (hplan : PlanOk typeName ids plan)
    (hid : plan.idStr ≠ "") (h : Keeps typeName ids (tables w.store)) :
    Keeps typeName ids (tables (updateRow db tools act i w plan).1.store) := by
  unfold updateRow
  dsimp only
  split
  · exact updateDcRoomRowRackGroup_keeps hdb (hplan.updateOk hid i.cm) h
  · split
    · exact updateOtherDevice_keeps hdb hplan hid h
    · exact updateDevice_keeps hdb (hplan.updateOk hid i.cm) h

theorem insertOtherDevice_keeps (hdb : TablesLaws db act tables) (hplan : PlanOk typeName ids plan)
    (hdevice : plan.type = "device") (h : Keeps typeName ids (tables w.store)) :
    ∃ ids', Keeps typeName ids' (tables (insertOtherDevice db tools act i w plan).1.store) := by
  have hgroup : plan.type ≠ "group" := by
    rw [hdevice]
    decide
  obtain ⟨ids', hinsert⟩ : ∃ ids', Keeps typeName ids' (tables (insertDevice db tools w.store
      { plan.write plan.ename (insertRO i.cm) with status := nonactiveFirst plan.status }).1) :=
    insertDevice_keeps hdb (fun e _ ↦ (hplan.insertOk (fun hg ↦ absurd hg hgroup) i.cm).withStatus
      (nonactiveFirst plan.status)) h
  refine ⟨ids', ?_⟩
  unfold insertOtherDevice
  dsimp only
  split
  · exact hinsert
  · split
    · exact activateAsset_keeps hdb hinsert
    · exact hinsert

theorem insertRow_keeps (hdb : TablesLaws db act tables) (hplan : PlanOk typeName ids plan)
    (h : Keeps typeName ids (tables w.store)) :
    ∃ ids', Keeps typeName ids' (tables (insertRow db tools act i w plan).1.store) := by
  unfold insertRow
  dsimp only
  split
  · apply insertDcRoomRowRackGroup_keeps hdb _ h
    intro e he
    apply hplan.insertOk
    intro hgroup
    -- the type of the row is that of the element, without a loss
    rw [he]
    show typeName (plan.typeId % 2 ^ 16) = "group"
    rw [Nat.mod_eq_of_lt hplan.typeId.1, hplan.typeId.2, hgroup]
  · rename_i hdevice
    have hdevice := not_not.mp hdevice
    split
    · exact insertOtherDevice_keeps hdb hplan hdevice h
    · apply insertDevice_keeps hdb _ h
      intro e _
      apply hplan.insertOk
      intro hgroup
      rw [hdevice] at hgroup
      exact absurd hgroup (by decide)

/-- A row keeps the tables sound, whether it is imported or not. -/
theorem processRow_keeps (hdb : TablesLaws db act tables) (hi : ImportArgs typeName i)
    (h : Keeps typeName ids (tables w.store)) :
    ∃ ids', Keeps typeName ids' (tables (processRow db tools act i w).1.store) := by
  unfold processRow
  cases hread : readRow db tools w.store i with
  | error e => exact ⟨ids, h⟩
  | ok plan =>
    obtain ⟨names, hsteps⟩ := readRow_steps hread
    have hplan := hsteps.planOk hdb hi
    rw [h.identities] at hplan
    have hwrite : ∃ ids', Keeps typeName ids' (tables (writeRow db tools act i w plan).1.store) := by
      unfold writeRow
      split
      · exact ⟨ids, updateRow_keeps hdb hplan ‹_› h⟩
      · exact insertRow_keeps hdb hplan h
    dsimp only
    rcases hw' : writeRow db tools act i w plan with ⟨w', e | written⟩
    · rw [hw'] at hwrite
      exact hwrite
    · rw [hw'] at hwrite
      dsimp only
      split
      · exact hwrite
      · exact hwrite

/-! ## Series of rows -/

/-- The tables of a new installation: there may be elements, which only have a name. -/
structure Installed (t : Tables) : Prop where
  ids : (t.elements.map ElementRow.id).Nodup
  names : (t.elements.map ElementRow.name).Nodup
  given : ∀ e ∈ t.elements, e.id ≠ 0 ∧ e.name ≠ ""
  ext : ∀ e ∈ t.elements, ∃ extname, t.ext e.id = [⟨"name", extname, false⟩]
  noExt : ∀ id, (∀ e ∈ t.elements, e.id ≠ id) → t.ext id = []
  links : ∀ id, t.links id = []
  groups : ∀ id, t.groups id = []

/-- The worlds that are reached by importing rows. -/
inductive Imported (db : AssetsDb σ) (tools : Tools) (act : AssetActivator σ)
    (tables : σ → Tables) (typeName : Nat → String) : World σ → Prop where
  | installed {w : World σ} : Installed (tables w.store) → Imported db tools act tables typeName w
  | row {w : World σ} {i : RowInput} : Imported db tools act tables typeName w →
      ImportArgs typeName i →
      Imported db tools act tables typeName (processRow db tools act i w).1

theorem nameOk {id : Nat} (extname : String) : AttrOk typeName ids id ⟨"name", extname, false⟩ where
  title _ := by
    show ciStrip "name" = "name"
    decide
  element _ _ := Or.inl rfl
  type hkey := by
    have hkey : "name" = "type" := hkey
    exact absurd hkey (by decide)
  logicalAsset hkey := by
    have hkey : "name" = "logical_asset" := hkey
    exact absurd hkey (by decide)

theorem Installed.keeps {t : Tables} (h : Installed t) : Keeps typeName t.identities t where
  identities := rfl
  sound := by
    -- an asset has its name as the only attribute, and what is no asset has none
    have hext : ∀ id, t.ext id = [] ∨ ∃ extname, t.ext id = [⟨"name", extname, false⟩] := by
      intro id
      by_cases hid : ∃ e ∈ t.elements, e.id = id
      · obtain ⟨e, he, rfl⟩ := hid
        exact Or.inr (h.ext e he)
      · exact Or.inl (h.noExt id fun e he heq ↦ hid ⟨e, he, heq⟩)
    constructor
    · rw [Tables.identities, List.map_map]
      exact h.ids
    · rw [Tables.identities, List.map_map]
      exact h.names
    · intro e he
      obtain ⟨row, hrow, rfl⟩ := List.mem_map.mp he
      exact h.given row hrow
    · intro id
      rcases hext id with hid | ⟨extname, hid⟩ <;> simp [hid]
    · intro id row hrow
      rcases hext id with hid | ⟨extname, hid⟩
      · rw [hid] at hrow
        exact absurd hrow List.not_mem_nil
      · rw [hid] at hrow
        obtain rfl := List.mem_singleton.mp hrow
        exact nameOk extname
    · intro id link hlink
      rw [h.links id] at hlink
      exact absurd hlink List.not_mem_nil
    · intro id group hgroup
      rw [h.groups id] at hgroup
      exact absurd hgroup List.not_mem_nil
  named e he := by
    obtain ⟨row, hrow, rfl⟩ := List.mem_map.mp he
    obtain ⟨extname, hext⟩ := h.ext row hrow
    show "name" ∈ (t.ext row.id).map ExtRow.keytag
    rw [hext]
    exact List.mem_singleton_self _

/-- The tables are sound after any series of rows. -/
theorem Imported.keeps (hdb : TablesLaws db act tables)
    (h : Imported db tools act tables typeName w) : ∃ ids, Keeps typeName ids (tables w.store) := by
  induction h with
  | installed hinstalled => exact ⟨_, hinstalled.keeps⟩
  | row _ hi ih =>
    obtain ⟨ids, hw⟩ := ih
    exact processRow_keeps hdb hi hw

end

end FtyRest.Db
