import FtyRest.Db.AssetGeneral
import FtyRest.Shared.Csv
import Mathlib.Data.List.Dedup
import Mathlib.Data.List.Range

/-!
# `process_row`

The import of one row from `db/inout/importcsv.cc`.  The row is read first, with all its checks;
what it asks for is written then.  A `Char` of a cell is one `char` of C, a byte.
-/

namespace FtyRest.Db

open Shared Checks

/-- What leaves `process_row` by an exception. -/
inductive Thrown where
  -- bios_throw
  | bios (key : String) (args : List String)
  | biosError (rowid : Nat) (msg : String)
  | invalidArgument (what : String)
  -- std::out_of_range
  | csv (e : CsvError)
deriving DecidableEq, Repr

structure Limitations where
  maxActivePowerDevices : Int := -1
  globalConfigurability : Int := 0
deriving DecidableEq, Repr

inductive AssetOperation where
  | insert
  | update
deriving DecidableEq, Repr

/-- The arguments of `process_row`. -/
structure RowInput where
  cm : CsvMap
  row : Nat
  types : List (String × Nat)
  subtypes : List (String × Nat)
  ids : List Nat
  sanitize : Bool
  rc0 : Nat
  limitations : Limitations

/-- What a row asks for. -/
structure RowPlan where
  idStr : String
  id : Int
  ename : String
  iname : String
  type : String
  typeId : Nat
  status : String
  assetTag : String
  priority : Nat
  parentId : Nat
  rackControllerId : Nat
  subtype : String
  subtypeId : Nat
  groups : List Nat
  links : List Link
  ext : List (String × String)
deriving DecidableEq, Repr

def statuses : List String := ["active", "nonactive", "retired", "spare"]

/-- A cell of the row. -/
def RowInput.cell (i : RowInput) (title : String) : Except Thrown String :=
  (i.cm.get i.row title).mapError .csv

def RowInput.cellStrip (i : RowInput) (title : String) : Except Thrown String :=
  (i.cm.getStrip i.row title).mapError .csv

def RowInput.titles (i : RowInput) : List String := i.cm.getTitles

def RowInput.has (i : RowInput) (title : String) : Bool := title ∈ i.titles

/-- The numbers from `1` on, for as long as there is a title with the number. -/
def RowInput.indices (i : RowInput) (item : String) : List Nat :=
  (List.range' 1 i.titles.length).takeWhile fun index ↦ i.has (item ++ toString index)

/-- A title with a number. -/
def RowInput.indexed (i : RowInput) (item : String) : List String :=
  (i.indices item).map fun index ↦ item ++ toString index

def internalError : Thrown := .bios "internal-error" ["Database failure"]

def requestParamBad (param received expected : String) : Thrown :=
  .bios "request-param-bad" [param, received, expected]

/-- `get_priority`, which reads two characters also of an empty text: its terminator, and what is
behind it. -/
def getPriority (behindText : Char) (s : String) : Nat :=
  if s.utf8ByteSize > 2 then 5
  else
    match ((s.toList ++ ['\x00', behindText]).take 2).find? fun c ↦
        49 ≤ c.toNat ∧ c.toNat ≤ 53 with
    | some c => c.toNat - 48
    | none => 5

/-- `is_date`: the whole key has to match one of the two alternatives. -/
def isDate (key : String) : Bool := key = "warranty_end" || key = "_date"

/-- `check_u_size`, with the text as it is left: one or two digits, and a `U` that is dropped. -/
def checkUSize (s : String) : Option String :=
  let digits := s.toList.takeWhile Char.isDigit
  let rest := s.toList.drop digits.length
  if (digits.length = 1 ∨ digits.length = 2) ∧ (rest = [] ∨ rest = ['u'] ∨ rest = ['U']) then
    match digits with
    | '0' :: d :: _ => some (String.ofList [d])
    | _ => some (String.ofList digits)
  else none

/-- `match_ext_attr`, with the text as it is left. -/
def matchExtAttr (value key : String) : Option String :=
  if key = "u_size" then checkUSize value
  else if value ≠ "" then some value
  else none

/-- `std::stoul`, which gives what is left of the text; `none` is an exception. -/
def stoul (s : List Char) : Option (Nat × List Char) :=
  let s := s.dropWhile fun c ↦ c.toNat = 32 ∨ (9 ≤ c.toNat ∧ c.toNat ≤ 13)
  let (negative, s) :=
    match s with
    | '-' :: s => (true, s)
    | '+' :: s => (false, s)
    | s => (false, s)
  let digits := s.takeWhile Char.isDigit
  let value := digits.foldl (fun v c ↦ 10 * v + (c.toNat - 48)) 0
  if digits = [] ∨ 2 ^ 64 ≤ value then none
  else some (if negative then (2 ^ 64 - value) % 2 ^ 64 else value, s.drop digits.length)

/-- The checks of `location_u_pos` and of `u_size`. -/
def checkUnits (key value : String) : Except Thrown Unit := do
  let (ul, rest) ← orThrow (stoul value.toList)
    (requestParamBad key ("'" ++ value ++ "'") "value must be an unsigned integer")
  require (rest = [])
    (requestParamBad key ("'" ++ value ++ "'") "value must be an unsigned integer")
  require (¬ (ul = 0 ∨ ul > 52))
    (requestParamBad key ("'" ++ value ++ "'") "value must be between <1, 52>.")

/-- The four `char`s of a cell that go into a socket. -/
def socketText (s : String) : String := String.ofList (s.toList.take 4)

section

variable {σ : Type} (db : AssetsDb σ) (tools : Tools) (act : AssetActivator σ) (s : σ)
  (i : RowInput)

/-- `sanitize_row_ext_names` -/
def sanitizeRowExtNames : Except Thrown (List (String × String)) := do
  let result ← i.titles.mapM fun title ↦ do
    let value ← i.cell title
    return (title, value)
  let sanitizeList :=
    ["location", "logical_asset"] ++ i.indexed "power_source." ++ i.indexed "group."
  return if i.sanitize then
    result.map fun (title, value) ↦
      if title ∈ sanitizeList then
        let (rv, name) := db.extnameToAssetName s value
        (title, if rv ≠ 0 then value else name)
      else (title, value)
  else result

/-- `sanitize_value_double` -/
def sanitizeValueDouble (key value : String) : Except Thrown ParsedDouble := do
  let d ← orThrow (tools.stod value)
    (requestParamBad key ("'" ++ value ++ "'") "value should be a number")
  require (d.whole = true) (requestParamBad key ("'" ++ value ++ "'") "value should be a number")
  return d

/-- The id of the row, after the decision about `rackcontroller-0`. -/
def rowIdStr : Except Thrown String := do
  let idStr ← if i.has "id" then i.cell "id" else pure ""
  return if i.rc0 ≠ i.row ∧ "rackcontroller-0" = idStr ∧ i.rc0 ≠ 2 ^ 64 - 1 then
    -- we got RC-0 but it don't match "myself"
    ""
  else if i.rc0 = i.row ∧ idStr ≠ "rackcontroller-0" then "rackcontroller-0"
  else idStr

/-- The conversion to `uint32_t`. -/
def uint32 (id : Int) : Nat := (id % 2 ^ 32).toNat

def rowId (idStr : String) : Except Thrown Int :=
  if idStr = "" then .ok 0
  else do
    let id := db.nameToAssetId s idStr
    require (id ≠ -1) (.bios "element-not-found" [idStr])
    require (uint32 id ∉ i.ids)
      (.bios "bad-request-document" ["Element id '" ++ idStr ++ "' found twice, aborting"])
    return id

def rowName (idStr : String) : Except Thrown (String × String) := do
  let ename ← i.cell "name"
  require (ename ≠ "") (requestParamBad "name" "empty value" "unique, non empty value")
  require (ename.utf8ByteSize ≤ 50)
    (requestParamBad "name" "too long string" "unique string from 1 to 50 characters")
  let (rv, iname) := db.extnameToAssetName s ename
  -- internal name from DB must be the same as internal name from CSV
  require (¬ (idStr ≠ "" ∧ rv = 0 ∧ iname ≠ idStr))
    (requestParamBad "name" "already existing name" "unique string from 1 to 50 characters")
  require (rv ≠ -2) internalError
  return (ename, iname)

def rowType : Except Thrown (String × Nat) := do
  let type ← i.cellStrip "type"
  let received := if type = "" then "empty value" else tools.jsonify type
  let typeId ← orThrow (i.types.lookup type) (requestParamBad "type" received
    (tools.jsonify (", ".intercalate (i.types.map Prod.fst))))
  return (type, typeId)

def rowStatus : Except Thrown String := do
  let status ← i.cellStrip "status"
  let received := if status = "" then "empty value" else tools.jsonify status
  require (status ∈ statuses)
    (requestParamBad "status" received (tools.jsonify (", ".intercalate statuses)))
  return status

def rowAssetTag : Except Thrown String := do
  let assetTag ← if i.has "asset_tag" then i.cell "asset_tag" else pure ""
  require (assetTag.utf8ByteSize ≤ 50)
    (requestParamBad "asset_tag" "too long string" "unique string from 1 to 50 characters")
  return assetTag

/-- An element that is named by a cell. -/
def findElement (name : String) (notFound : Thrown) : Except Thrown Nat :=
  match selectAssetElementByName db s name with
  | .ok id => .ok id
  | .error .notFound => .error notFound
  | .error _ => .error internalError

def rowLocation (names : List (String × String)) : Except Thrown Nat :=
  let location := (names.lookup "location").getD ""
  if location = "" then .ok 0
  else findElement db s location (requestParamBad "location" location "<existing asset name>")

/-- The dictionary in which the subtype is looked up; `emplace` keeps what is there. -/
def localSubtypes (rackControllerId patchPanelId : Nat) : List (String × Nat) :=
  i.subtypes ++ [("rackcontroller", rackControllerId), ("rackcontroler", rackControllerId),
    ("rc", rackControllerId), ("RC", rackControllerId), ("RC3", rackControllerId),
    ("patchpanel", patchPanelId)]

/-- The ids of the rack controller, of the subtype, and its text. -/
def rowSubtype (type : String) : Except Thrown (Nat × Nat × String) := do
  let rackControllerId := (i.subtypes.lookup "rack controller").getD tools.behindEnd
  let patchPanelId := (i.subtypes.lookup "patch panel").getD tools.behindEnd
  let found := localSubtypes i rackControllerId patchPanelId
  let subtype ← i.cellStrip "sub_type"
  let received := if subtype = "" then "empty value" else tools.jsonify subtype
  require (¬ (type = "device" ∧ (found.lookup subtype).isNone))
    (requestParamBad "subtype" received
      (tools.jsonify (", ".intercalate (i.subtypes.map Prod.fst))))
  require (¬ (subtype = "" ∧ type = "group"))
    (.bios "request-param-required" ["subtype (for type group)"])
  return (rackControllerId, (found.lookup subtype).getD tools.behindEnd, subtype)

/-- If the id is set, then it is the time to check what is going on in the database. -/
def checkInDb (idStr : String) (id : Int) (typeId subtypeId : Nat) : Except Thrown Unit :=
  if idStr = "" then .ok ()
  else
    match db.selectAssetElementWebById s (uint32 id) with
    | .error .notFound => .error (.bios "element-not-found" [idStr])
    | .error _ => .error internalError
    | .ok element => do
        require (element.typeId = typeId)
          (.bios "bad-request-document" ["Changing of asset type is forbidden"])
        require (¬ (element.subtypeId ≠ subtypeId ∧ element.subtypeName ≠ "N_A"))
          (.bios "bad-request-document" ["Changing of asset subtype is forbidden"])

/-- The ids of all groups that the element belongs to. -/
def rowGroups (names : List (String × String)) : Except Thrown (List Nat) := do
  let groups ← (i.indexed "group.").mapM fun title ↦
    let group := (names.lookup title).getD ""
    if group = "" then pure none
    else (findElement db s group (.bios "element-not-found" [group])).map some
  return (groups.filterMap id).dedup

/-- A power link with number `index`. -/
def rowLink (names : List (String × String)) (ename type : String) (index : Nat) :
    Except Thrown (Option Link) :=
  let linkSource := (names.lookup ("power_source." ++ toString index)).getD ""
  -- prevent power source being myself
  if linkSource = ename then .ok none
  else do
    let src ← if linkSource = "" then pure 0
      else findElement db s linkSource (.bios "element-not-found" [linkSource])
    let srcOut := (i.cm.get i.row ("power_plug_src." ++ toString index)).toOption.map socketText
    let destIn := (i.cm.get i.row ("power_input." ++ toString index)).toOption.map socketText
    return if src ≠ 0 ∧ type = "device" then some { src, srcOut, destIn, type := 1 } else none

def rowLinks (names : List (String × String)) (ename type : String) :
    Except Thrown (List Link) := do
  let links ← (i.indices "power_source.").mapM (rowLink db s i names ename type)
  return links.filterMap id

/-- The columns that are none of the above, in the order in which they are gone through. -/
def unusedColumns (idStr : String) : List String :=
  let used := ["create_mode", "id", "name", "type", "status", "asset_tag", "priority", "location",
    "sub_type"] ++ i.indexed "group." ++ i.indexed "power_source." ++
    (i.indices "power_source.").map (fun index ↦ "power_plug_src." ++ toString index) ++
    (i.indices "power_source.").map fun index ↦ "power_input." ++ toString index
  -- sanity check, for RC-0 always skip HW attributes
  let hw :=
    if i.rc0 = i.row ∧ idStr ≠ "rackcontroller-0" then
      i.indexed "ip." ++ i.indexed "ipv6." ++
        ["fqdn", "serial_no", "model", "manufacturer", "uuid"]
    else []
  i.titles.filter fun title ↦ title ∉ used ∧ title ∉ hw

/-- The checks on the value of a sensor, or of a current or power. -/
def checkedValue (names : List (String × String)) (key value : String) :
    Except Thrown String :=
  if key = "logical_asset" ∧ value ≠ "" then do
    -- check, that this asset exists
    let value := (names.lookup "logical_asset").getD ""
    let _ ← findElement db s value (.bios "element-not-found" [value])
    return value
  else if (key = "calibration_offset_t" ∨ key = "calibration_offset_h") ∧ value ≠ "" then do
    let _ ← sanitizeValueDouble tools key value
    return value
  else if (key = "max_current" ∨ key = "max_power") ∧ value ≠ "" then do
    let d ← sanitizeValueDouble tools key value
    require (d.negative = false)
      (requestParamBad key ("'" ++ value ++ "'") "value must be a not negative number")
    return value
  else .ok value

/-- One round of the loop over the ext attributes. -/
def extAttribute (names : List (String × String)) (key : String) :
    Except Thrown (Option (String × String)) := do
  let value ← i.cell key
  let value ←
    if isDate key ∧ value ≠ "" then
      orThrow (tools.sanitizeDate value) (requestParamBad key value "ISO date")
    else pure value
  let value ← checkedValue db tools s names key value
  if key = "location_u_pos" ∧ value ≠ "" then checkUnits key value else pure ()
  if key = "u_size" ∧ value ≠ "" then checkUnits key value else pure ()
  return (matchExtAttr value key).map fun value ↦ (key, value)

def rowExtAttributes (names : List (String × String)) (idStr ename type subtype : String) :
    Except Thrown (List (String × String)) := do
  let ext ← (unusedColumns i idStr).mapM (extAttribute db tools s i names)
  -- the subtype of a group is inserted as an ext attribute
  return ("name", ename) :: ext.filterMap id ++ if type = "group" then [("type", subtype)] else []

/-- The first part of `process_row`, up to the writing. -/
def readRow : Except Thrown RowPlan := do
  require (i.limitations.globalConfigurability ≠ 0) (.bios "action-forbidden"
    ["Asset handling", "Licensing global_configurability limit hit"])
  -- get location, powersource etc as name from ext.name
  let names ← sanitizeRowExtNames db s i
  require (i.titles ≠ []) (.bios "bad-request-document" ["Cannot import empty document."])
  let idStr ← rowIdStr i
  let id ← rowId db s i idStr
  let (ename, iname) ← rowName db s i idStr
  let (type, typeId) ← rowType tools i
  let status ← rowStatus tools i
  let assetTag ← rowAssetTag i
  let priority ← i.cellStrip "priority"
  let parentId ← rowLocation db s names
  let (rackControllerId, subtypeId, subtype) ← rowSubtype tools i type
  checkInDb db s idStr id typeId subtypeId
  let groups ← rowGroups db s i names
  let links ← rowLinks db s i names ename type
  let ext ← rowExtAttributes db tools s i names idStr ename type subtype
  return {
    idStr, id, ename, iname, type, typeId, status, assetTag, parentId, rackControllerId, subtype
    subtypeId, groups, links, ext
    priority := getPriority tools.behindText priority }

/-! ## Writing -/

/-- What the writing part leaves for the result. -/
structure Written where
  id : Nat
  status : String
  warningMessages : String := ""
deriving DecidableEq, Repr

def RowPlan.write (plan : RowPlan) (elementName : String)
    (extattributesRO : List (String × String)) : AssetWrite where
  elementName := elementName
  elementTypeId := plan.typeId % 2 ^ 16
  subtypeId := plan.subtypeId % 2 ^ 16
  parentId := plan.parentId
  extattributes := plan.ext
  status := plan.status
  priority := plan.priority
  groups := plan.groups
  links := plan.links
  assetTag := plan.assetTag
  extattributesRO := some extattributesRO

def updateRO (cm : CsvMap) : List (String × String) :=
  (if cm.updateTs ≠ "" then [("update_ts", cm.updateTs)] else []) ++
    if cm.updateUser ≠ "" then [("update_user", cm.updateUser)] else []

def insertRO (cm : CsvMap) : List (String × String) :=
  (if cm.createMode ≠ 0 then [("create_mode", toString cm.createMode)] else []) ++
    if cm.createUser ≠ "" then [("create_user", cm.createUser)] else []

def licensingWarning (idStr what : String) : String :=
  "Element '" ++ idStr ++ "' is updated but a licensing error occured: " ++ what

/-- The deactivation of an asset that is active, before it is updated. -/
def deactivateAsset (w : World σ) (plan : RowPlan) : World σ × Except Thrown Unit :=
  if db.getStatusFromDbHelper w.store plan.idStr = "active" then
    match db.getJsonAsset w.store (uint32 plan.id) with
    | .error what => (w, .error (.bios "licensing-err" [tools.jsonify what]))
    | .ok assetJson =>
        match act.deactivate w assetJson with
        | (w, .error what) => (w, .error (.bios "licensing-err" [tools.jsonify what]))
        | (w, .ok ()) => (w, .ok ())
  else (w, .ok ())

/-- The activation of an asset that is written; its failure is a warning. -/
def activateAsset (w : World σ) (idStr : String) (id : Nat) : World σ × String :=
  match db.getJsonAsset w.store id with
  | .error what => (w, licensingWarning idStr what)
  | .ok assetJson =>
      match act.activate w assetJson with
      | (w, .error what) => (w, licensingWarning idStr what)
      | (w, .ok ()) => (w, "")

/-- The status with which a device is written, before it is activated. -/
def nonactiveFirst (status : String) : String := if status = "active" then "nonactive" else status

/-- An update has to return `0` and to leave `errmsg` empty. -/
def updated (ret : UpdateResult) : Except Thrown Unit :=
  require (¬ (ret.1 ≠ 0 ∨ ret.2 ≠ "")) (.invalidArgument ret.2)

/-- The update of a device other than `rackcontroller-0`. -/
def updateOtherDevice (w : World σ) (plan : RowPlan) : World σ × Except Thrown Written :=
  let id := uint32 plan.id
  match deactivateAsset db tools act w plan with
  | (w, .error e) => (w, .error e)
  | (w, .ok ()) =>
      -- "nonactive" is written whatever is requested
      let (store, ret) := updateDevice db tools w.store id
        { plan.write plan.iname (updateRO i.cm) with status := "nonactive" }
      let w := { w with store }
      match updated ret with
      | .error e => (w, .error e)
      | .ok () =>
          let status := nonactiveFirst plan.status
          if plan.status = "active" then
            let (w, warningMessages) := activateAsset db act w plan.idStr id
            (w, .ok { id, status, warningMessages })
          else (w, .ok { id, status })

def updateRow (w : World σ) (plan : RowPlan) : World σ × Except Thrown Written :=
  let id := uint32 plan.id
  let a := plan.write plan.iname (updateRO i.cm)
  if plan.type ≠ "device" then
    let (store, ret) := updateDcRoomRowRackGroup db tools w.store id a
    ({ w with store }, (updated ret).map fun _ ↦ { id, status := plan.status })
  else if plan.idStr ≠ "rackcontroller-0" then updateOtherDevice db tools act i w plan
  else
    let (store, ret) := updateDevice db tools w.store id a
    ({ w with store }, (updated ret).map fun _ ↦ { id, status := plan.status })

/-- An insertion has to answer with status `1`. -/
def insertedId (ret : DbReply) : Except Thrown Nat :=
  if ret.status ≠ 1 then .error (.biosError ret.rowid ret.msg) else .ok ret.rowid

/-- The insertion of a device other than a rack controller. -/
def insertOtherDevice (w : World σ) (plan : RowPlan) : World σ × Except Thrown Written :=
  let status := nonactiveFirst plan.status
  let (store, ret) := insertDevice db tools w.store
    { plan.write plan.ename (insertRO i.cm) with status }
  let w := { w with store }
  match insertedId ret with
  | .error e => (w, .error e)
  | .ok id =>
      if plan.status = "active" then
        -- try to activate the device
        let (w, warningMessages) := activateAsset db act w plan.idStr id
        (w, .ok { id, status, warningMessages })
      else (w, .ok { id, status })

def insertRow (w : World σ) (plan : RowPlan) : World σ × Except Thrown Written :=
  let a := plan.write plan.ename (insertRO i.cm)
  if plan.type ≠ "device" then
    let (store, ret) := insertDcRoomRowRackGroup db tools w.store a
    ({ w with store }, (insertedId ret).map fun id ↦ { id, status := plan.status })
  else if plan.subtypeId ≠ plan.rackControllerId then insertOtherDevice db tools act i w plan
  else
    let (store, ret) := insertDevice db tools w.store a
    ({ w with store }, (insertedId ret).map fun id ↦ { id, status := plan.status })

def writeRow (w : World σ) (plan : RowPlan) : World σ × Except Thrown Written :=
  if plan.idStr ≠ "" then updateRow db tools act i w plan else insertRow db tools act i w plan

/-- `db_a_elmnt_t`, as it is returned. -/
structure RowElement where
  id : Nat
  name : String
  status : String
  parentId : Nat
  priority : Nat
  typeId : Nat
  subtypeId : Nat
  assetTag : String
  ext : List (String × String)
deriving DecidableEq, Repr

/-- The result of `process_row`, with the `ids` and `warningMessages` that it leaves. -/
structure RowResult where
  m : RowElement
  operation : AssetOperation
  ids : List Nat
  warningMessages : String
deriving DecidableEq, Repr

def processRow (w : World σ) : World σ × Except Thrown RowResult :=
  match readRow db tools w.store i with
  | .error e => (w, .error e)
  | .ok plan =>
      match writeRow db tools act i w plan with
      | (w, .error e) => (w, .error e)
      | (w, .ok written) =>
          let (rv, name) := db.extnameToAssetName w.store plan.ename
          if rv ≠ 0 then (w, .error internalError)
          else
            let m : RowElement := {
              id := written.id
              name
              status := written.status
              parentId := plan.parentId
              priority := plan.priority
              typeId := plan.typeId % 2 ^ 16
              subtypeId := plan.subtypeId % 2 ^ 16
              assetTag := plan.assetTag
              ext := plan.ext }
            let result : RowResult := {
              m
              operation := if plan.idStr = "" then .insert else .update
              ids := if plan.idStr = "" then i.ids else (uint32 plan.id) :: i.ids
              warningMessages := written.warningMessages }
            (w, .ok result)

end

/-! ## A row that is read -/

section

variable {σ : Type} {db : AssetsDb σ} {tools : Tools} {s : σ} {i : RowInput} {plan : RowPlan}

/-- What the parts of `readRow` have told about the plan. -/
structure ReadSteps (db : AssetsDb σ) (tools : Tools) (s : σ) (i : RowInput)
    (names : List (String × String)) (plan : RowPlan) : Prop where
  sanitized : sanitizeRowExtNames db s i = .ok names
  idStr : rowIdStr i = .ok plan.idStr
  id : rowId db s i plan.idStr = .ok plan.id
  name : rowName db s i plan.idStr = .ok (plan.ename, plan.iname)
  type : rowType tools i = .ok (plan.type, plan.typeId)
  status : rowStatus tools i = .ok plan.status
  assetTag : rowAssetTag i = .ok plan.assetTag
  parentId : rowLocation db s names = .ok plan.parentId
  subtype : rowSubtype tools i plan.type =
    .ok (plan.rackControllerId, plan.subtypeId, plan.subtype)
  inDb : checkInDb db s plan.idStr plan.id plan.typeId plan.subtypeId = .ok ()
  groups : rowGroups db s i names = .ok plan.groups
  links : rowLinks db s i names plan.ename plan.type = .ok plan.links
  ext : rowExtAttributes db tools s i names plan.idStr plan.ename plan.type plan.subtype =
    .ok plan.ext

theorem readRow_steps (h : readRow db tools s i = .ok plan) :
    ∃ names, ReadSteps db tools s i names plan := by
  simp only [readRow, bind_eq_ok, pure_eq_ok, Prod.exists] at h
  obtain ⟨-, -, names, hnames, -, -, idStr, hidStr, id, hid, ename, iname, hname, type, typeId, htype,
    status, hstatus, assetTag, hassetTag, priority, -, parentId, hparentId, rackControllerId,
    subtypeId, subtype, hsubtype, ⟨⟩, hinDb, groups, hgroups, links, hlinks, ext, hext, rfl⟩ := h
  exact ⟨names, hnames, hidStr, hid, hname, htype, hstatus, hassetTag, hparentId, hsubtype, hinDb,
    hgroups, hlinks, hext⟩

theorem ReadSteps.id_eq {names : List (String × String)} (h : ReadSteps db tools s i names plan)
    (hid : plan.idStr ≠ "") : plan.id = db.nameToAssetId s plan.idStr := by
  have hrow := h.id
  unfold rowId at hrow
  rw [if_neg hid] at hrow
  simp only [bind_eq_ok, pure_eq_ok] at hrow
  obtain ⟨-, -, -, -, heq⟩ := hrow
  exact heq.symm

theorem ReadSteps.nameCell {names : List (String × String)}
    (h : ReadSteps db tools s i names plan) : i.cell "name" = .ok plan.ename := by
  have hname := h.name
  simp only [rowName, bind_eq_ok, pure_eq_ok, Prod.mk.injEq] at hname
  obtain ⟨ename, hcell, -, -, -, -, -, -, -, -, rfl, -⟩ := hname
  exact hcell

theorem ReadSteps.typeCell {names : List (String × String)}
    (h : ReadSteps db tools s i names plan) : i.cellStrip "type" = .ok plan.type := by
  have htype := h.type
  simp only [rowType, bind_eq_ok, pure_eq_ok, Prod.mk.injEq] at htype
  obtain ⟨type, hcell, -, -, rfl, -⟩ := htype
  exact hcell

theorem processRow_write {act : AssetActivator σ} {w : World σ}
    (hread : readRow db tools w.store i = .ok plan) :
    (processRow db tools act i w).1 = (writeRow db tools act i w plan).1 := by
  unfold processRow
  rw [hread]
  dsimp only
  rcases writeRow db tools act i w plan with ⟨w', e | written⟩
  · rfl
  · dsimp only
    split
    · rfl
    · rfl

/-- A row that returns was read and written, and its world is that of the writing. -/
theorem processRow_ok {act : AssetActivator σ} {w w' : World σ} {result : RowResult}
    (h : processRow db tools act i w = (w', .ok result)) :
    ∃ plan written, readRow db tools w.store i = .ok plan ∧
      writeRow db tools act i w plan = (w', .ok written) ∧ result.m.id = written.id ∧
      result.m.status = written.status ∧ result.warningMessages = written.warningMessages := by
  unfold processRow at h
  cases hread : readRow db tools w.store i with
  | error e =>
    rw [hread] at h
    simp at h
  | ok plan =>
    simp only [hread] at h
    rcases hrow : writeRow db tools act i w plan with ⟨w₁, e | written⟩
    · rw [hrow] at h
      simp at h
    · simp only [hrow] at h
      split at h
      · simp at h
      · obtain ⟨rfl, hresult⟩ := Prod.mk.inj h
        obtain rfl := Except.ok.inj hresult
        exact ⟨plan, written, rfl, hrow, rfl, rfl, rfl⟩

end

end FtyRest.Db
