import FtyRest.Db.Inout.RowSound
import FtyRest.Db.Inout.RowTrace
import FtyRest.Db.TablesAssets
import FtyRest.Lib.History

/-!
# Power links from an asset to itself

What an imported row does to the power links, and which rows make an asset its own power source.
-/

namespace FtyRest.Db

open Shared Checks History

/-- The source of a power link to `id` is another asset. -/
def NoSelfLinks (links : Nat → List Link) : Prop := ∀ id, ∀ link ∈ links id, link.src ≠ id

/-- The links with new ones, which get their destination. -/
def linksTo (links : Nat → List Link) (id : Nat) (new : List Link) : Nat → List Link :=
  Function.update links id (links id ++ new.map fun link ↦ { link with dest := id })

theorem NoSelfLinks.linksTo {links : Nat → List Link} {id : Nat} {new : List Link}
    (h : NoSelfLinks links) (hnew : ∀ link ∈ new, link.src ≠ id) :
    NoSelfLinks (linksTo links id new) := by
  apply (Function.forall_update_iff links fun id' links ↦ ∀ link ∈ links, link.src ≠ id').mpr
  refine ⟨fun link hlink ↦ ?_, fun id' _ ↦ h id'⟩
  rcases List.mem_append.mp hlink with hold | hadded
  · exact h id link hold
  · obtain ⟨old, hold, rfl⟩ := List.mem_map.mp hadded
    exact hnew old hold

theorem NoSelfLinks.deleted {links : Nat → List Link} {id : Nat} (h : NoSelfLinks links) :
    NoSelfLinks (Function.update links id []) := by
  apply (Function.forall_update_iff links fun id' links ↦ ∀ link ∈ links, link.src ≠ id').mpr
  exact ⟨fun _ hlink ↦ absurd hlink List.not_mem_nil, fun id' _ ↦ h id'⟩

theorem insertLinks_links (t : Tables) (id : Nat) (new : List Link) :
    (t.insertLinks (new.map fun link ↦ { link with dest := id })).links =
      linksTo t.links id new := by
  funext id'
  unfold linksTo
  show t.links id' ++ (new.map fun link ↦ { link with dest := id }).filter (·.dest = id') = _
  by_cases hid : id' = id
  · subst hid
    rw [Function.update_self, List.filter_eq_self.mpr]
    intro link hlink
    obtain ⟨old, -, rfl⟩ := List.mem_map.mp hlink
    exact decide_eq_true rfl
  · rw [Function.update_of_ne hid, List.filter_eq_nil_iff.mpr, List.append_nil]
    intro link hlink
    obtain ⟨old, -, rfl⟩ := List.mem_map.mp hlink
    simpa using fun h ↦ hid h.symm

/-! ## What is written -/

section

variable {σ : Type} {db : AssetsDb σ} {act : AssetActivator σ} {tables : σ → Tables}
  {tools : Tools} {s s' : σ} {a : AssetWrite} {elementId : Nat}

theorem updateElement_links (hdb : TablesLaws db act tables) {errmsg : String}
    (h : updateElement db tools s elementId a = .ok (s', errmsg)) :
    (tables s').links = (tables s).links := by
  rw [updateElement_tables hdb h]
  rfl

theorem updateElementRO_links (hdb : TablesLaws db act tables)
    {ro : Option (List (String × String))} {readOnly : Bool} {errmsg errmsg' : String}
    (h : updateElementRO db tools s elementId ro readOnly errmsg = .ok (s', errmsg')) :
    (tables s').links = (tables s).links := by
  rcases updateElementRO_tables hdb h with ⟨-, heq⟩ | ⟨attrs, -, heq⟩
  · rw [heq]
  · rw [heq]
    rfl

/-- The old links are replaced when a device is updated. -/
theorem updateDeviceBody_links (hdb : TablesLaws db act tables) {errmsg : String}
    (h : updateDeviceBody db tools s elementId a = .ok (s', errmsg)) :
    (tables s').links =
      linksTo (Function.update (tables s).links elementId []) elementId a.links := by
  simp only [updateDeviceBody, bind_eq_ok, pure_eq_ok, require_eq_ok, Prod.exists,
    Prod.mk.injEq] at h
  obtain ⟨-, -, s₁, errmsg₁, hupdate, s₂, errmsg₂, hro, -, hret4, -, hret5, -, hret6, -, hret7,
    rfl, -⟩ := h
  -- the steps in front of the removal of the old links do not touch them
  have hlinks : (tables s₂).links = (tables s).links :=
    (updateElementRO_links hdb hro).trans (updateElement_links hdb hupdate)
  rw [hdb.insertLinks _ _ hret7, insertLinks_links, hdb.deleteLinks _ _ hret6,
    hdb.insertGroups _ _ _ hret5, hdb.deleteGroups _ _ hret4, ← hlinks]
  rfl

theorem updateDcRoomRowRackGroup_links (hdb : TablesLaws db act tables) :
    (tables (updateDcRoomRowRackGroup db tools s elementId a).1).links = (tables s).links := by
  unfold updateDcRoomRowRackGroup
  cases h : updateDcRoomRowRackGroupBody db tools s elementId a with
  | error ret => rfl
  | ok r =>
    simp only [updateDcRoomRowRackGroupBody, bind_eq_ok, pure_eq_ok, require_eq_ok,
      Prod.exists] at h
    obtain ⟨-, -, s₁, errmsg₁, hupdate, s₂, errmsg₂, hro, -, hret4, -, hret5, rfl⟩ := h
    show (tables (db.insertElementIntoGroups _ a.groups elementId).1).links = _
    rw [hdb.insertGroups _ _ _ (hdb.allGroups hret5), hdb.deleteGroups _ _ hret4]
    exact (updateElementRO_links hdb hro).trans (updateElement_links hdb hupdate)

theorem insertElementRO_links (hdb : TablesLaws db act tables)
    {ro : Option (List (String × String))}
    (h : insertElementRO db tools s elementId ro = .ok s') :
    (tables s').links = (tables s).links := by
  cases ro with
  | none =>
    simp only [insertElementRO, pure_eq_ok] at h
    rw [h]
  | some attrs =>
    simp only [insertElementRO, bind_eq_ok, pure_eq_ok, require_eq_ok] at h
    obtain ⟨-, hinsert, rfl⟩ := h
    rw [hdb.insertExt _ _ _ _ _ hinsert]
    rfl

/-- A new element has a new id, and no links yet. -/
theorem insertElement_links (hdb : TablesLaws db act tables) {iname : String} {reply : DbReply}
    (h : insertElement db tools s a iname = .ok (s', reply)) :
    (∀ e ∈ (tables s).elements, e.id ≠ reply.rowid) ∧ (tables s').links = (tables s).links := by
  simp only [insertElement, bind_eq_ok, pure_eq_ok, require_eq_ok, Prod.mk.injEq] at h
  obtain ⟨-, hinsert1, -, hinsert2, s₁, hro, -, hinsert3, rfl, rfl⟩ := h
  obtain ⟨e, hrowid, -, -, -, hnew, htables⟩ := hdb.insertElement _ _ _ _ hinsert1
  constructor
  · intro e' he'
    rw [← hrowid]
    exact (hnew e' he').1
  · rw [hdb.insertGroups _ _ _ (hdb.allGroups hinsert3)]
    show (tables s₁).links = _
    rw [insertElementRO_links hdb hro, hdb.insertExt _ _ _ _ _ hinsert2]
    show (tables (db.insertIntoAssetElement _ _ _ _).1).links = _
    rw [htables]
    rfl

theorem insertDcRoomRowRackGroup_links (hdb : TablesLaws db act tables) :
    (tables (insertDcRoomRowRackGroup db tools s a).1).links = (tables s).links := by
  unfold insertDcRoomRowRackGroup
  cases h : insertDcRoomRowRackGroupBody db tools s a with
  | error reply => rfl
  | ok r =>
    simp only [insertDcRoomRowRackGroupBody, bind_eq_ok, Prod.exists] at h
    obtain ⟨-, -, -, -, s₁, reply₁, hinsert, h⟩ := h
    obtain ⟨-, hlinks⟩ := insertElement_links hdb hinsert
    split at h
    · simp only [bind_eq_ok, pure_eq_ok] at h
      obtain ⟨s₂, hmonitor, rfl⟩ := h
      show (tables s₂).links = _
      rw [insertMonitor_tables hdb hmonitor, hlinks]
    · rw [pure_eq_ok] at h
      obtain rfl := h
      exact hlinks

/-- The links of a device that is inserted go to a new element. -/
theorem insertDevice_links (hdb : TablesLaws db act tables) (tools : Tools) (s : σ)
    (a : AssetWrite) :
    (tables (insertDevice db tools s a).1).links = (tables s).links ∨
      ∃ id, (∀ e ∈ (tables s).elements, e.id ≠ id) ∧
        (tables (insertDevice db tools s a).1).links = linksTo (tables s).links id a.links := by
  unfold insertDevice
  cases h : insertDeviceBody db tools s a with
  | error reply => exact Or.inl rfl
  | ok r =>
    simp only [insertDeviceBody, bind_eq_ok, require_eq_ok, Prod.exists] at h
    obtain ⟨-, -, s₁, reply₁, hinsert, -, hlinks, h⟩ := h
    obtain ⟨hnew, hsame⟩ := insertElement_links hdb hinsert
    refine Or.inr ⟨reply₁.rowid, hnew, ?_⟩
    -- the monitor's tables come behind the links, on either branch
    have hadded : (tables (db.insertIntoAssetLinks s₁ (a.links.map fun link ↦
        { link with dest := reply₁.rowid })).1).links =
          linksTo (tables s).links reply₁.rowid a.links := by
      rw [hdb.insertLinks _ _ hlinks, insertLinks_links, hsame]
    split at h
    · simp only [bind_eq_ok, pure_eq_ok] at h
      obtain ⟨s₃, hmonitor, rfl⟩ := h
      show (tables s₃).links = _
      rw [insertMonitor_tables hdb hmonitor]
      exact hadded
    · simp only [bind_eq_ok, pure_eq_ok] at h
      obtain ⟨-, -, rfl⟩ := h
      exact hadded

end

/-! ## What a row does to the links -/

/-- The text of a power source, in which an external name is replaced. -/
def powerSource (names : List (String × String)) (index : Nat) : String :=
  (names.lookup ("power_source." ++ toString index)).getD ""

section

variable {σ : Type} {db : AssetsDb σ} {act : AssetActivator σ} {tables : σ → Tables}
  {tools : Tools} {s : σ} {i : RowInput} {w : World σ} {plan : RowPlan}
  {names : List (String × String)}

theorem findElement_eq_ok {name : String} {notFound : Thrown} {id : Nat} :
    findElement db s name notFound = .ok id ↔ selectAssetElementByName db s name = .ok id := by
  unfold findElement
  rcases selectAssetElementByName db s name with e | id'
  · cases e <;> simp
  · simp

theorem rowLink_some {ename type : String} {index : Nat} {link : Link}
    (h : rowLink db s i names ename type index = .ok (some link)) :
    powerSource names index ≠ ename ∧ powerSource names index ≠ "" ∧ type = "device" ∧
      link.src ≠ 0 ∧ selectAssetElementByName db s (powerSource names index) = .ok link.src := by
  change (if powerSource names index = ename then _ else
    if powerSource names index = "" then _ else _) = _ at h
  -- a source under the external name of the row is left out, and so is an empty one
  by_cases hename : powerSource names index = ename
  · rw [if_pos hename] at h
    simp at h
  · rw [if_neg hename] at h
    by_cases hempty : powerSource names index = ""
    · rw [if_pos hempty] at h
      simp at h
    · simp only [if_neg hempty, bind_eq_ok, pure_eq_ok] at h
      obtain ⟨src, hsrc, hlink⟩ := h
      by_cases hgiven : src ≠ 0 ∧ type = "device"
      · rw [if_pos hgiven] at hlink
        obtain rfl := Option.some.inj hlink
        exact ⟨hename, hempty, hgiven.2, hgiven.1, findElement_eq_ok.mp hsrc⟩
      · rw [if_neg hgiven] at hlink
        simp at hlink

theorem rowLink_of_source {ename type : String} {index src : Nat}
    (hename : powerSource names index ≠ ename) (hempty : powerSource names index ≠ "")
    (htype : type = "device") (hsrc : src ≠ 0)
    (hfound : selectAssetElementByName db s (powerSource names index) = .ok src) :
    ∃ link, rowLink db s i names ename type index = .ok (some link) ∧ link.src = src := by
  have hrow : rowLink db s i names ename type index = .ok (some {
      src
      srcOut := (i.cm.get i.row ("power_plug_src." ++ toString index)).toOption.map socketText
      destIn := (i.cm.get i.row ("power_input." ++ toString index)).toOption.map socketText
      type := 1 }) := by
    show (if powerSource names index = ename then _ else
      if powerSource names index = "" then _ else _) = _
    have hsource : findElement db s (powerSource names index)
        (.bios "element-not-found" [powerSource names index]) = .ok src :=
      findElement_eq_ok.mpr hfound
    unfold powerSource at hsource
    rw [if_neg hename, if_neg hempty, hsource, ok_bind]
    exact congrArg Except.ok (if_pos ⟨hsrc, htype⟩)
  exact ⟨_, hrow, rfl⟩

theorem mem_rowLinks {ename type : String} {links : List Link}
    (h : rowLinks db s i names ename type = .ok links) {link : Link} :
    link ∈ links ↔ ∃ index ∈ i.indices "power_source.",
      rowLink db s i names ename type index = .ok (some link) := by
  simp only [rowLinks, bind_eq_ok, pure_eq_ok] at h
  -- the columns are read in turn, and those without a link are dropped
  obtain ⟨found, hfound, rfl⟩ := h
  rw [List.mem_filterMap]
  constructor
  · rintro ⟨o, ho, rfl⟩
    exact mapM_ok_mem hfound ho
  · rintro ⟨index, hindex, hlink⟩
    obtain ⟨o, ho, heq⟩ := mapM_ok_image hfound hindex
    exact ⟨some link, Except.ok.inj (heq.symm.trans hlink) ▸ ho, rfl⟩

/-- One of the power sources of a device that is updated is the device, under another name than the
external one of the row. -/
def NamesItself (db : AssetsDb σ) (s : σ) (i : RowInput) : Prop :=
  ∃ names idStr ename, sanitizeRowExtNames db s i = .ok names ∧ rowIdStr i = .ok idStr ∧
    i.cell "name" = .ok ename ∧ i.cellStrip "type" = .ok "device" ∧ idStr ≠ "" ∧
    ∃ index ∈ i.indices "power_source.", powerSource names index ≠ ename ∧
      powerSource names index ≠ "" ∧ uint32 (db.nameToAssetId s idStr) ≠ 0 ∧
      selectAssetElementByName db s (powerSource names index) =
        .ok (uint32 (db.nameToAssetId s idStr))

/-- The plan of an update has a link from the asset to itself when the row names itself. -/
theorem ReadSteps.self_link_iff (h : ReadSteps db tools s i names plan) (hid : plan.idStr ≠ "") :
    (∃ link ∈ plan.links, link.src = uint32 plan.id) ↔ NamesItself db s i := by
  have hrow := h.id_eq hid
  constructor
  · intro ⟨link, hlink, hsrc⟩
    -- the source was found under a name other than the external one, and its id is that of the row
    obtain ⟨index, hindex, hlink⟩ := (mem_rowLinks h.links).mp hlink
    obtain ⟨hename, hempty, htype, hzero, hfound⟩ := rowLink_some hlink
    rw [hsrc, hrow] at hzero hfound
    exact ⟨names, plan.idStr, plan.ename, h.sanitized, h.idStr, h.nameCell, htype ▸ h.typeCell, hid,
      index, hindex, hename, hempty, hzero, hfound⟩
  · intro ⟨names', idStr, ename, hnames, hidStr, hcell, htype, _, index, hindex, hename, hempty,
      hzero, hfound⟩
    obtain rfl := Except.ok.inj (h.sanitized.symm.trans hnames)
    obtain rfl := Except.ok.inj (h.idStr.symm.trans hidStr)
    obtain rfl := Except.ok.inj (h.nameCell.symm.trans hcell)
    have hdevice := Except.ok.inj (h.typeCell.symm.trans htype)
    obtain ⟨link, hlink, hsrc⟩ :=
      rowLink_of_source (i := i) hename hempty hdevice hzero hfound
    exact ⟨link, (mem_rowLinks h.links).mpr ⟨index, hindex, hlink⟩, hrow ▸ hsrc⟩

theorem deactivateAsset_links (hdb : TablesLaws db act tables) :
    (tables (deactivateAsset db tools act w plan).1.store).links = (tables w.store).links := by
  unfold deactivateAsset
  split
  · cases hjson : db.getJsonAsset w.store (uint32 plan.id) with
    | error what => rfl
    | ok assetJson =>
      obtain ⟨status, hstatus⟩ := hdb.deactivate w assetJson
      dsimp only
      rcases hdone : act.deactivate w assetJson with ⟨w', r⟩
      rw [hdone] at hstatus
      have hlinks : (tables w'.store).links = (tables w.store).links := by
        rw [show tables w'.store = _ from hstatus]
        rfl
      cases r with
      | error what => exact hlinks
      | ok u => exact hlinks
  · rfl

theorem activateAsset_links (hdb : TablesLaws db act tables) {idStr : String} {id : Nat} :
    (tables (activateAsset db act w idStr id).1.store).links = (tables w.store).links := by
  unfold activateAsset
  cases hjson : db.getJsonAsset w.store id with
  | error what => rfl
  | ok assetJson =>
    obtain ⟨status, hstatus⟩ := hdb.activate w assetJson
    dsimp only
    rcases hdone : act.activate w assetJson with ⟨w', r⟩
    rw [hdone] at hstatus
    have hlinks : (tables w'.store).links = (tables w.store).links := by
      rw [show tables w'.store = _ from hstatus]
      rfl
    cases r with
    | error what => exact hlinks
    | ok u => exact hlinks

theorem updateDevice_links (hdb : TablesLaws db act tables) (tools : Tools) (s : σ)
    (elementId : Nat) (a : AssetWrite) :
    ((updateDevice db tools s elementId a).2.1 = 0 →
      (tables (updateDevice db tools s elementId a).1).links =
        linksTo (Function.update (tables s).links elementId []) elementId a.links) ∧
    ((updateDevice db tools s elementId a).2.1 ≠ 0 →
      (tables (updateDevice db tools s elementId a).1).links = (tables s).links) := by
  constructor
  · intro hzero
    apply updateDeviceBody_links hdb
    exact updateDevice_ok_iff.mp (Prod.ext rfl (Prod.ext hzero rfl))
  · intro hne
    rw [updateDevice_rolledBack hne]

/-- The links of a device are replaced by an update, unless it fails. -/
theorem updateRow_links (hdb : TablesLaws db act tables) (tools : Tools) (i : RowInput)
    (w : World σ) (plan : RowPlan) :
    (tables (updateRow db tools act i w plan).1.store).links = (tables w.store).links ∧
        (plan.type = "device" → ∃ e, (updateRow db tools act i w plan).2 = .error e) ∨
      (tables (updateRow db tools act i w plan).1.store).links =
        linksTo (Function.update (tables w.store).links (uint32 plan.id) []) (uint32 plan.id)
          plan.links := by
  -- a reply with an error is an exception
  have hfails {ret : UpdateResult} (h : ret.1 ≠ 0) : updated ret = .error (.invalidArgument ret.2) :=
    require_eq_error.mpr ⟨not_not_intro (Or.inl h), rfl⟩
  unfold updateRow
  dsimp only
  split
  · rename_i htype
    exact Or.inl ⟨updateDcRoomRowRackGroup_links hdb, fun h ↦ absurd h htype⟩
  · split
    · have hdeact : (tables (deactivateAsset db tools act w plan).1.store).links = _ :=
        deactivateAsset_links hdb
      unfold updateOtherDevice
      rcases hw₁ : deactivateAsset db tools act w plan with ⟨w₁, e | u⟩
      · rw [hw₁] at hdeact
        exact Or.inl ⟨hdeact, fun _ ↦ ⟨e, rfl⟩⟩
      · rw [hw₁] at hdeact
        dsimp only at hdeact ⊢
        have hupdate := updateDevice_links hdb tools w₁.store (uint32 plan.id)
          { plan.write plan.iname (updateRO i.cm) with status := "nonactive" }
        rw [hdeact] at hupdate
        rcases hret : updateDevice db tools w₁.store (uint32 plan.id)
          { plan.write plan.iname (updateRO i.cm) with status := "nonactive" } with ⟨store, ret⟩
        rw [hret] at hupdate
        dsimp only at hupdate ⊢
        by_cases hzero : ret.1 = 0
        · apply Or.inr
          split
          · exact hupdate.1 hzero
          · split
            · exact (activateAsset_links hdb).trans (hupdate.1 hzero)
            · exact hupdate.1 hzero
        · rw [hfails hzero]
          exact Or.inl ⟨hupdate.2 hzero, fun _ ↦ ⟨_, rfl⟩⟩
    · have hupdate := updateDevice_links hdb tools w.store (uint32 plan.id)
        (plan.write plan.iname (updateRO i.cm))
      rcases hret : updateDevice db tools w.store (uint32 plan.id)
        (plan.write plan.iname (updateRO i.cm)) with ⟨store, ret⟩
      rw [hret] at hupdate
      dsimp only at hupdate ⊢
      by_cases hzero : ret.1 = 0
      · exact Or.inr (hupdate.1 hzero)
      · rw [hfails hzero]
        exact Or.inl ⟨hupdate.2 hzero, fun _ ↦ ⟨_, rfl⟩⟩

theorem insertRow_links (hdb : TablesLaws db act tables) (tools : Tools) (i : RowInput)
    (w : World σ) (plan : RowPlan) :
    (tables (insertRow db tools act i w plan).1.store).links = (tables w.store).links ∨
      ∃ id, (∀ e ∈ (tables w.store).elements, e.id ≠ id) ∧
        (tables (insertRow db tools act i w plan).1.store).links =
          linksTo (tables w.store).links id plan.links := by
  unfold insertRow
  dsimp only
  split
  · exact Or.inl (insertDcRoomRowRackGroup_links hdb)
  · split
    · have hinsert := insertDevice_links hdb tools w.store
        { plan.write plan.ename (insertRO i.cm) with status := nonactiveFirst plan.status }
      unfold insertOtherDevice
      dsimp only
      split
      · exact hinsert
      · split
        · rw [activateAsset_links hdb]
          exact hinsert
        · exact hinsert
    · exact insertDevice_links hdb tools w.store _

/-- A row leaves no link from an asset to itself, unless it names itself. -/
theorem processRow_noSelfLinks (hdb : TablesLaws db act tables) (hrow : ¬ NamesItself db w.store i)
    (h : NoSelfLinks (tables w.store).links) :
    NoSelfLinks (tables (processRow db tools act i w).1.store).links := by
  cases hread : readRow db tools w.store i with
  | error e =>
    have hsame : (processRow db tools act i w).1 = w := by
      unfold processRow
      rw [hread]
    rw [hsame]
    exact h
  | ok plan =>
    obtain ⟨names, hsteps⟩ := readRow_steps hread
    rw [processRow_write hread, writeRow]
    split
    · rename_i hid
      rcases updateRow_links hdb tools i w plan with
        ⟨hsame, -⟩ | hlinks
      · rw [hsame]
        exact h
      · rw [hlinks]
        -- what is left after the removal has no such link, and the row adds none
        apply h.deleted.linksTo
        intro link hlink hsrc
        exact hrow ((hsteps.self_link_iff hid).mp ⟨link, hlink, hsrc⟩)
    · rcases insertRow_links hdb tools i w plan with
        hsame | ⟨id, hnew, hlinks⟩
      · rw [hsame]
        exact h
      · -- the sources are there before the new element
        rw [hlinks]
        apply h.linksTo
        intro link hlink hsrc
        obtain ⟨e, he, hid⟩ := rowLinks_there hdb hsteps.links hlink
        obtain ⟨row, hrow, rfl⟩ := List.mem_map.mp he
        exact hnew row hrow (hid.trans hsrc)

/-- A row that names itself, and is imported, leaves a link from its asset to itself. -/
theorem processRow_self_link (hdb : TablesLaws db act tables) (hrow : NamesItself db w.store i)
    {result : RowResult} (hok : (processRow db tools act i w).2 = .ok result) :
    ¬ NoSelfLinks (tables (processRow db tools act i w).1.store).links := by
  obtain ⟨plan, written, hread, hwrite, -⟩ := processRow_ok (Prod.ext rfl hok)
  obtain ⟨names, hsteps⟩ := readRow_steps hread
  have hid : plan.idStr ≠ "" := by
    obtain ⟨-, idStr, -, -, hidStr, -, -, hid, -⟩ := hrow
    rw [Except.ok.inj (hsteps.idStr.symm.trans hidStr)]
    exact hid
  have hdevice : plan.type = "device" := by
    obtain ⟨-, -, -, -, -, -, htype, -⟩ := hrow
    exact Except.ok.inj (hsteps.typeCell.symm.trans htype)
  obtain ⟨link, hlink, hsrc⟩ := (hsteps.self_link_iff hid).mpr hrow
  rw [writeRow, if_pos hid] at hwrite
  -- the row is imported, so the update did not fail and has replaced the links
  rcases updateRow_links hdb tools i w plan with
    ⟨-, herror⟩ | hlinks
  · obtain ⟨e, he⟩ := herror hdevice
    rw [hwrite] at he
    simp at he
  · rw [hwrite] at hlinks
    intro h
    rw [hlinks] at h
    refine h (uint32 plan.id) { link with dest := uint32 plan.id } ?_ hsrc
    unfold linksTo
    rw [Function.update_self]
    exact List.mem_append_right _ (List.mem_map_of_mem hlink)

/-- The world after a series of rows. -/
def importRows (db : AssetsDb σ) (tools : Tools) (act : AssetActivator σ) (w : World σ)
    (rows : List RowInput) : World σ :=
  final (fun w i ↦ processRow db tools act i w) w rows

theorem importRows_concat {rows : List RowInput} : importRows db tools act w (rows ++ [i]) =
    (processRow db tools act i (importRows db tools act w rows)).1 :=
  final_concat

/-- As long as no row names itself there are no links from an asset to itself, and the first row
that does and is imported makes one. -/
theorem own_power_source (hdb : TablesLaws db act tables) {rows : List RowInput}
    (hstart : NoSelfLinks (tables w.store).links) :
    (EveryTime (fun before i ↦ ¬ NamesItself db (importRows db tools act w before).store i) rows →
      NoSelfLinks (tables (importRows db tools act w rows).store).links) ∧
    ∀ before i after result, rows = before ++ i :: after →
      NamesItself db (importRows db tools act w before).store i →
      (processRow db tools act i (importRows db tools act w before)).2 = .ok result →
      ¬ NoSelfLinks (tables (importRows db tools act w (before ++ [i])).store).links := by
  constructor
  · induction rows using List.reverseRecOn with
    | nil => exact fun _ ↦ hstart
    | append_singleton rows i ih =>
      intro h
      obtain ⟨hrows, hi⟩ := everyTime_concat.mp h
      rw [importRows_concat]
      exact processRow_noSelfLinks hdb hi (ih hrows)
  · intro before i after result _ hrow hok
    rw [importRows_concat]
    exact processRow_self_link hdb hrow hok

end

/-! ## A device that is fed by itself -/

/-- One device, without a power source. -/
def upsWorld : World Tables where
  store := {
    elements := [⟨7, "ups-7", AssetType.device, 1, 0, "nonactive", 1, ""⟩]
    ext := fun id ↦ if id = 7 then [⟨"name", "UPS", false⟩] else []
    links := fun _ ↦ []
    groups := fun _ ↦ [] }
  activation := fun _ ↦ false

/-- A row that updates the device, with a power source. -/
def upsFedBy (source : String) : RowInput where
  cm := {
    data := [["id", "name", "type", "sub_type", "location", "status", "priority", "power_source.1"],
      ["ups-7", "UPS", "device", "ups", "", "nonactive", "P1", source]]
    titleToIndex := ["id", "name", "type", "sub_type", "location", "status", "priority",
      "power_source.1"].zipIdx }
  row := 1
  types := [("device", AssetType.device)]
  subtypes := [("patch panel", 3), ("rack controller", 2), ("ups", 1)]
  ids := []
  sanitize := true
  rc0 := 2 ^ 64 - 1
  limitations := { globalConfigurability := 1 }

theorem own_power_source_ups :
    (EveryTime (fun before i ↦ ¬ NamesItself tablesAssets
        (importRows tablesAssets plainTools idleActivator upsWorld before).store i)
        [upsFedBy "UPS"] →
      NoSelfLinks (importRows tablesAssets plainTools idleActivator upsWorld
        [upsFedBy "UPS"]).store.links) ∧
    ∀ before i after result, [upsFedBy "UPS"] = before ++ i :: after →
      NamesItself tablesAssets
        (importRows tablesAssets plainTools idleActivator upsWorld before).store i →
      (processRow tablesAssets plainTools idleActivator i
        (importRows tablesAssets plainTools idleActivator upsWorld before)).2 = .ok result →
      ¬ NoSelfLinks (importRows tablesAssets plainTools idleActivator upsWorld
        (before ++ [i])).store.links :=
  own_power_source tablesAssets_laws fun _ _ h ↦ absurd h List.not_mem_nil

/-- The device is given by its external name, which is replaced by the internal one before the two
are compared. -/
theorem ups_feeds_itself :
    NoSelfLinks upsWorld.store.links ∧
      ¬ NoSelfLinks (importRows tablesAssets plainTools idleActivator upsWorld
        [upsFedBy "UPS"]).store.links := by
  constructor
  · exact fun _ _ h ↦ absurd h List.not_mem_nil
  · have hlinks : (importRows tablesAssets plainTools idleActivator upsWorld
        [upsFedBy "UPS"]).store.links 7 = [{ src := 7, dest := 7, type := 1 }] := by
      decide +kernel
    intro h
    exact h 7 _ (hlinks ▸ List.mem_cons_self) rfl

end FtyRest.Db
