import FtyRest.Db.Types

/-!
# Deleting assets

`asset_manager::delete_item` of `shared/data.cc`, for one asset and for a list of them.  The
database functions that it calls are fields of `AssetDb`, over a world that they read and change.
-/

namespace FtyRest.Shared

open Db

/-- What `select_asset_element_web_byId` tells of an asset. -/
structure BasicElement where
  typeId : Nat
  subtypeId : Nat
  name : String
  parentId : Nat
  status : String
deriving DecidableEq, Repr

/-- A row of `select_assets_cb`; an asset that is not located has the parent `0`. -/
structure AssetRow where
  id : Nat
  typeId : Nat
  subtypeId : Nat
  name : String
  parentId : Nat
deriving DecidableEq, Repr

/-- `db_a_elmnt_t`, as far as it is filled here. -/
structure Element where
  id : Nat
  typeId : Nat
  subtypeId : Nat
  name : String
  parentId : Nat
  status : String := ""
deriving DecidableEq, Repr

structure ElementInfo where
  el : Element
  links : List Nat := []
deriving DecidableEq, Repr

structure CheckException where
  id : Nat
  msg : String
  errType : ErrNo := .dbErr
  errSubType : ErrNo := .unknown
deriving DecidableEq, Repr

/-- Why a collection of children does not return normally. -/
inductive Stop where
  | diverges
  | check (e : CheckException)
deriving DecidableEq, Repr

/-- What `delete_item` calls.  The database library answers the reads; `persist` deletes. -/
structure AssetDb (σ : Type) where
  selectAssetElementWebById : σ → Nat → Except ErrNo BasicElement
  countKeytag : σ → String → String → Nat
  selectAssets : σ → List AssetRow
  selectLinkDests : σ → Nat → Except String (List Nat)
  getJsonAsset : σ → Nat → Except String String
  deleteDcRoomRowRack : σ → Nat → σ × Except String DbReply
  deleteGroup : σ → Nat → σ × Except String DbReply
  deleteDevice : σ → Nat → String → σ × Except String DbReply

/-- A call of one of the three deletions. -/
inductive DeleteCall where
  | dcRoomRowRack (id : Nat)
  | group (id : Nat)
  | device (id : Nat) (assetJson : String)
deriving DecidableEq, Repr

section

variable {σ : Type} (db : AssetDb σ)

/-- The part after the checks that the two functions write alike: the calls, and what comes of
them.  `none` stands for a type that is not known. -/
def persistDelete (w : σ) (id typeId : Nat) (status : String) :
    σ × Option (Except String DbReply) × List DeleteCall :=
  if typeId = AssetType.datacenter ∨ typeId = AssetType.row ∨ typeId = AssetType.room ∨
      typeId = AssetType.rack then
    let (w, reply) := db.deleteDcRoomRowRack w id
    (w, some reply, [.dcRoomRowRack id])
  else if typeId = AssetType.group then
    let (w, reply) := db.deleteGroup w id
    (w, some reply, [.group id])
  else if typeId = AssetType.device then
    if status = "active" then
      -- we need device JSON in order to delete active device
      match db.getJsonAsset w id with
      | .error what => (w, some (.error what), [])
      | .ok assetJson =>
          let (w, reply) := db.deleteDevice w id assetJson
          (w, some reply, [.device id assetJson])
    else
      let (w, reply) := db.deleteDevice w id ""
      (w, some reply, [.device id ""])
  else (w, none, [])

/-- `delete_item (id, element_info)`, with the deletions it calls. -/
def deleteItem (w : σ) (id : Nat) : σ × DbReply × List DeleteCall :=
  match db.selectAssetElementWebById w id with
  | .error errsubtype =>
      let ret : DbReply := {
        status := 0
        errtype := errsubtype
        errsubtype := .notFound
        msg := "problem with selecting basic info" }
      (w, ret, [])
  | .ok basic =>
      -- disable deleting RC0
      if rc0Iname = basic.name then (w, { status := 1, affectedRows := 0 }, [])
      -- check if a logical_asset refer to the item we are trying to delete
      else if db.countKeytag w "logical_asset" basic.name > 0 then
        let ret : DbReply := {
          status := 0
          errsubtype := .deleteFail
          msg := "a logical_asset (sensor) refers to it" }
        (w, ret, [])
      else
        match persistDelete db w id basic.typeId basic.status with
        | (w, some (.ok reply), calls) => (w, reply, calls)
        | (w, some (.error what), calls) =>
            (w, { status := 0, errtype := .dbErr, errsubtype := .internal, msg := what }, calls)
        | (w, none, calls) =>
            (w, { status := 0, errsubtype := .internal, msg := "unknown type" }, calls)

/-! ## The batch -/

def checkAndAddInfo (ids : List ElementInfo) (item : ElementInfo) :
    Except CheckException (List ElementInfo) :=
  if ids.any (·.el.id = item.el.id) then .ok ids
  -- disable deleting RC0
  else if rc0Iname = item.el.name then .error ⟨item.el.id, "Prevented deleting RC-0", .dbErr, .unknown⟩
  else .ok (ids ++ [item])

def AssetRow.info (row : AssetRow) : ElementInfo where
  el := {
    id := row.id
    typeId := row.typeId
    subtypeId := row.subtypeId
    name := row.name
    parentId := row.parentId }

/-- `collectChildren`, given up when the recursion is deeper than `fuel`. -/
def collectChildren (rows : List AssetRow) : Nat → Nat → List ElementInfo →
    Except Stop (List ElementInfo)
  | 0, _, _ => .error .diverges
  | fuel + 1, id, ids =>
      rows.foldlM (fun ids row ↦
        if id = row.parentId then do
          let ids ← collectChildren rows fuel row.id ids
          (checkAndAddInfo ids row.info).mapError .check
        else .ok ids) ids

def selectAnyLinks (w : σ) (item : ElementInfo) : Except CheckException (List Nat) :=
  (db.selectLinkDests w item.el.id).mapError fun what ↦ ⟨item.el.id, what, .dbErr, .internal⟩

/-- `deleteAsset`, with the deletions it calls. -/
def deleteAsset (w : σ) (item : ElementInfo) :
    σ × Except CheckException DbReply × List DeleteCall :=
  if db.countKeytag w "logical_asset" item.el.name > 0 then
    (w, .error ⟨item.el.id, "a logical_asset (sensor) refers to it", .dbErr, .deleteFail⟩, [])
  else
    match persistDelete db w item.el.id item.el.typeId item.el.status with
    | (w, some (.ok reply), calls) => (w, .ok reply, calls)
    | (w, some (.error what), calls) => (w, .error ⟨item.el.id, what, .dbErr, .deleteFail⟩, calls)
    -- the exception for an unknown type is caught and thrown again
    | (w, none, calls) => (w, .error ⟨item.el.id, "unknown type", .dbErr, .deleteFail⟩, calls)

/-- The answer to an exception. -/
def CheckException.answ (e : CheckException) : DbReply where
  status := 0
  errtype := e.errType
  errsubtype := e.errSubType
  msg := e.msg

/-- What the first loop of the batch fills. -/
structure Work where
  ret : List (Nat × DbReply) := []
  elementInfo : List Element := []
  toDel : List ElementInfo := []

/-- The checks on one requested asset: it goes into the work list before they are over. -/
def request (w : σ) (ids : List Nat) (toDel : List ElementInfo) (info : ElementInfo) :
    List ElementInfo × Except Stop Unit :=
  let rows := db.selectAssets w
  match collectChildren rows (rows.length + 1) info.el.id [] with
  | .error stop => (toDel, .error stop)
  | .ok children =>
      let children := ids.foldl
        (fun children existsId ↦ children.filter fun item ↦ ¬ item.el.id = existsId) children
      match selectAnyLinks db w info with
      | .error e => (toDel, .error (.check e))
      | .ok links =>
          match checkAndAddInfo toDel { info with links } with
          | .error e => (toDel, .error (.check e))
          | .ok toDel =>
              if !children.isEmpty then
                (toDel, .error (.check ⟨info.el.id,
                  "can't delete the asset because it has at least one child", .dbErr, .unknown⟩))
              else
                let links := ids.foldl (fun links existsId ↦ links.filter (· ≠ existsId)) links
                if !links.isEmpty then
                  (toDel, .error (.check ⟨info.el.id,
                    "can't delete the asset because it is linked to others", .dbErr, .unknown⟩))
                else (toDel, .ok ())

/-- The fields that the batch copies. -/
def BasicElement.element (basic : BasicElement) (id : Nat) : Element where
  id := id
  typeId := basic.typeId
  subtypeId := basic.subtypeId
  name := basic.name
  parentId := basic.parentId

/-- One round of the first loop; `none` when it does not return. -/
def collect (w : σ) (ids : List Nat) (work : Work) (id : Nat) : Option Work :=
  match db.selectAssetElementWebById w id with
  | .error _ =>
      let answ : DbReply := {
        status := 0
        errtype := .dbErr
        errsubtype := .notFound
        msg := "problem with selecting basic info" }
      some { work with ret := work.ret ++ [(id, answ)] }
  | .ok basic =>
      let el := basic.element id
      let work := { work with elementInfo := work.elementInfo ++ [el] }
      match request db w ids work.toDel { el } with
      | (toDel, .ok ()) => some { work with toDel }
      | (toDel, .error (.check e)) =>
          some { work with toDel, ret := work.ret ++ [(id, e.answ)] }
      | (_, .error .diverges) => none

/-- `isLinked` -/
def isLinked (item parent : ElementInfo) : Bool :=
  if parent.el.id ∈ item.links then false else item.el.id ∈ parent.links

/-- `isAnyParent`: the loop climbs from `p` to the parents that are in the work list. -/
def isAnyParent (toDel : List ElementInfo) (item : ElementInfo) : Nat → ElementInfo → Bool
  | 0, _ => false
  | fuel + 1, p =>
      if item.el.parentId = p.el.id then true
      else
        match toDel.find? (·.el.id = p.el.parentId) with
        | none => false
        | some found => isAnyParent toDel item fuel found

/-- The comparison that is handed to `std::sort`. -/
def before (toDel : List ElementInfo) (l r : ElementInfo) : Bool :=
  isAnyParent toDel l (toDel.length + 1) r || isLinked l r

/-- `std::sort`: all that is known of the result is that it is a permutation, as the comparison is
not checked to be a strict weak ordering. -/
structure StdSort where
  sort : (ElementInfo → ElementInfo → Bool) → List ElementInfo → List ElementInfo
  perm : ∀ less items, (sort less items).Perm items

/-- The second loop of the batch.  The calls of `deleteAsset`, each with the world it finds, and
the deletions are kept along. -/
structure BatchRun (σ : Type) where
  world : σ
  ret : List (Nat × DbReply)
  issued : List (Nat × σ) := []
  calls : List DeleteCall := []

def deleteNext (run : BatchRun σ) (item : ElementInfo) : BatchRun σ :=
  if run.ret.find? (·.1 = item.el.id) |>.all (·.2.status ≠ 0) then
    let issued := run.issued ++ [(item.el.id, run.world)]
    match deleteAsset db run.world item with
    | (world, .ok reply, calls) =>
        { world, issued, ret := run.ret ++ [(item.el.id, reply)], calls := run.calls ++ calls }
    | (world, .error e, calls) =>
        { world, issued, ret := run.ret ++ [(item.el.id, e.answ)], calls := run.calls ++ calls }
  else run

/-- `delete_item (ids, element_info)` -/
def deleteItems (std : StdSort) (w : σ) (ids : List Nat) : Option (BatchRun σ) := do
  let work ← ids.foldlM (collect db w ids) {}
  return (std.sort (before work.toDel) work.toDel).foldl (deleteNext db)
    { world := w, ret := work.ret }

end

/-! ## The worlds -/

section

variable {σ : Type} (db : AssetDb σ)

/-- Whatever is answered, the world is that of the deletion. -/
theorem deleteAsset_world (world : σ) (item : ElementInfo) :
    (deleteAsset db world item).1 =
      if db.countKeytag world "logical_asset" item.el.name > 0 then world
      else (persistDelete db world item.el.id item.el.typeId item.el.status).1 := by
  unfold deleteAsset
  split
  · rfl
  · rcases persistDelete db world item.el.id item.el.typeId item.el.status with
      ⟨world', _ | ⟨what | reply⟩, calls⟩ <;> rfl

theorem deleteItem_world {world : σ} {id : Nat} {basic : BasicElement}
    (hbasic : db.selectAssetElementWebById world id = .ok basic) :
    (deleteItem db world id).1 =
      if rc0Iname = basic.name ∨ db.countKeytag world "logical_asset" basic.name > 0 then world
      else (persistDelete db world id basic.typeId basic.status).1 := by
  simp only [deleteItem, hbasic]
  by_cases hrc : rc0Iname = basic.name
  · simp only [hrc, true_or, if_true]
  · by_cases href : db.countKeytag world "logical_asset" basic.name > 0
    · simp only [if_neg hrc, href, or_true, if_true]
    · simp only [hrc, href, or_self, if_false]
      rcases persistDelete db world id basic.typeId basic.status with
        ⟨world', _ | ⟨what | reply⟩, calls⟩ <;> rfl

end

/-! ## One asset, by either function -/

section

variable {σ : Type} {db : AssetDb σ} {w : σ} {id : Nat} {basic : BasicElement}

theorem StdSort.sort_singleton (std : StdSort) (less : ElementInfo → ElementInfo → Bool)
    (item : ElementInfo) : std.sort less [item] = [item] :=
  List.perm_singleton.mp (std.perm less [item])

theorem foldlM_of_skips {ε α β : Type} {f : β → α → Except ε β} {xs : List α}
    (h : ∀ x ∈ xs, ∀ s, f s x = .ok s) (s : β) : xs.foldlM f s = .ok s := by
  induction xs with
  | nil => rfl
  | cons x xs ih =>
    rw [List.foldlM_cons, h x List.mem_cons_self]
    exact ih fun y hy ↦ h y (List.mem_cons_of_mem x hy)

theorem collectChildren_leaf {rows : List AssetRow} (h : ∀ row ∈ rows, row.parentId ≠ id)
    (fuel : Nat) (ids : List ElementInfo) :
    collectChildren rows (fuel + 1) id ids = .ok ids := by
  unfold collectChildren
  apply foldlM_of_skips
  intro row hrow s
  rw [if_neg fun heq ↦ h row hrow heq.symm]

/-- The batch of one asset that nothing hangs on issues its deletion, with the status left out. -/
theorem deleteItems_singleton (std : StdSort) (hbasic : db.selectAssetElementWebById w id = .ok basic)
    (hrc : basic.name ≠ rc0Iname) (hchild : ∀ row ∈ db.selectAssets w, row.parentId ≠ id)
    (hpower : db.selectLinkDests w id = .ok []) :
    ∃ run, deleteItems db std w [id] = some run ∧
      run.calls = if db.countKeytag w "logical_asset" basic.name > 0 then []
        else (persistDelete db w id basic.typeId "").2.2 := by
  -- without children and powered devices the check adds just the asset
  have hrequest : request db w [id] [] { el := basic.element id } =
      ([{ el := basic.element id }], .ok ()) := by
    have hname : ¬ rc0Iname = basic.name := Ne.symm hrc
    simp [request, BasicElement.element, collectChildren_leaf hchild, selectAnyLinks, hpower,
      Except.mapError, checkAndAddInfo, hname]
  have hwork : [id].foldlM (collect db w [id]) {} =
      some { elementInfo := [basic.element id], toDel := [{ el := basic.element id }] } := by
    simp only [List.foldlM_cons, List.foldlM_nil, collect, hbasic, hrequest]
    rfl
  refine ⟨(std.sort (before [{ el := basic.element id }]) [{ el := basic.element id }]).foldl
    (deleteNext db) { world := w, ret := [] }, ?_, ?_⟩
  · rw [deleteItems, hwork]
    rfl
  · simp only [std.sort_singleton, List.foldl_cons, List.foldl_nil, deleteNext, List.find?_nil,
      Option.all_none, if_true, deleteAsset, BasicElement.element]
    by_cases href : db.countKeytag w "logical_asset" basic.name > 0
    · simp [href]
    · simp only [if_neg href]
      rcases persistDelete db w id basic.typeId "" with ⟨w', _ | ⟨what | reply⟩, calls⟩ <;> simp

theorem deleteItem_calls (hbasic : db.selectAssetElementWebById w id = .ok basic)
    (hrc : basic.name ≠ rc0Iname) :
    (deleteItem db w id).2.2 = if db.countKeytag w "logical_asset" basic.name > 0 then []
      else (persistDelete db w id basic.typeId basic.status).2.2 := by
  simp only [deleteItem, hbasic, if_neg (Ne.symm hrc)]
  split
  · rfl
  · rcases persistDelete db w id basic.typeId basic.status with ⟨w', _ | ⟨what | reply⟩, calls⟩ <;>
      rfl

/-- The batch forgets the status, which decides about the JSON of a device and nothing else. -/
theorem persistDelete_status (h : basic.typeId ≠ AssetType.device ∨ basic.status ≠ "active") :
    persistDelete db w id basic.typeId "" = persistDelete db w id basic.typeId basic.status := by
  unfold persistDelete
  rcases h with h | h
  · simp [h]
  · simp [h]

/-- Both functions delete alike, and an active device with its JSON, except for an active device
that no `logical_asset` refers to: the batch never hands over a JSON. -/
theorem single_batch_agree_iff (std : StdSort)
    (hbasic : db.selectAssetElementWebById w id = .ok basic) (hrc : basic.name ≠ rc0Iname)
    (hchild : ∀ row ∈ db.selectAssets w, row.parentId ≠ id)
    (hpower : db.selectLinkDests w id = .ok []) :
    (∃ run, deleteItems db std w [id] = some run ∧
      run.calls = (deleteItem db w id).2.2 ∧
      (basic.typeId = AssetType.device → basic.status = "active" →
        ∀ assetJson, .device id assetJson ∈ run.calls → assetJson ≠ "")) ↔
      ¬ (basic.typeId = AssetType.device ∧ basic.status = "active" ∧
        db.countKeytag w "logical_asset" basic.name = 0) := by
  obtain ⟨run, hrun, hcalls⟩ := deleteItems_singleton std hbasic hrc hchild hpower
  have hsingle := deleteItem_calls hbasic hrc
  constructor
  · rintro ⟨run', hrun', hsame, hjson⟩ ⟨htype, hstatus, hfree⟩
    obtain rfl : run = run' := Option.some.inj (hrun.symm.trans hrun')
    -- the call of the batch is known, and its JSON is empty
    have hcall : run.calls = [.device id ""] := by
      rw [hcalls, if_neg (by omega)]
      simp [persistDelete, htype, AssetType.device, AssetType.datacenter, AssetType.row,
        AssetType.room, AssetType.rack, AssetType.group]
    exact hjson htype hstatus "" (by rw [hcall]; exact List.mem_singleton_self _) rfl
  · intro hnot
    refine ⟨run, hrun, ?_, ?_⟩
    · rw [hcalls, hsingle]
      by_cases href : db.countKeytag w "logical_asset" basic.name > 0
      · rw [if_pos href, if_pos href]
      · rw [if_neg href, if_neg href, persistDelete_status]
        by_contra hboth
        push Not at hboth
        exact hnot ⟨hboth.1, hboth.2, by omega⟩
    · intro htype hstatus assetJson hmem
      have href : db.countKeytag w "logical_asset" basic.name > 0 := by
        by_contra hfree
        exact hnot ⟨htype, hstatus, by omega⟩
      rw [hcalls, if_pos href] at hmem
      simp at hmem

end

/-- A store with one device, `7`. -/
def oneDevice (status : String) : AssetDb Unit where
  selectAssetElementWebById _ id :=
    if id = 7 then .ok ⟨AssetType.device, 1, "ups-7", 2, status⟩ else .error .notFound
  countKeytag _ _ _ := 0
  selectAssets _ := [⟨7, AssetType.device, 1, "ups-7", 2⟩]
  selectLinkDests _ _ := .ok []
  getJsonAsset _ _ := .ok "an asset"
  deleteDcRoomRowRack w _ := (w, .ok {})
  deleteGroup w _ := (w, .ok {})
  deleteDevice w _ _ := (w, .ok {})

/-- A sort that finds everything in order. -/
def inOrder : StdSort := ⟨fun _ items ↦ items, fun _ _ ↦ .refl _⟩

theorem single_batch_agree_iff_spare :
    (∃ run, deleteItems (oneDevice "spare") inOrder () [7] = some run ∧
      run.calls = (deleteItem (oneDevice "spare") () 7).2.2 ∧
      (AssetType.device = AssetType.device → "spare" = "active" →
        ∀ assetJson, .device 7 assetJson ∈ run.calls → assetJson ≠ "")) ↔
      ¬ (AssetType.device = AssetType.device ∧ "spare" = "active" ∧
        (oneDevice "spare").countKeytag () "logical_asset" "ups-7" = 0) :=
  single_batch_agree_iff inOrder
    (show (oneDevice "spare").selectAssetElementWebById () 7 =
      .ok ⟨AssetType.device, 1, "ups-7", 2, "spare"⟩ from rfl) (by decide) (by decide) rfl

/-- An active device: the single deletion hands over its JSON, the batch an empty one. -/
theorem active_device_differs :
    (deleteItem (oneDevice "active") () 7).2.2 = [.device 7 "an asset"] ∧
      ∃ run, deleteItems (oneDevice "active") inOrder () [7] = some run ∧
        run.calls = [.device 7 ""] :=
  ⟨rfl, _, rfl, rfl⟩

end FtyRest.Shared
