import FtyRest.Db.Types
import FtyRest.Ecpp.Json
import FtyRest.Shared.Csv
import Mathlib.Data.List.Sort

/-!
# `getJsonAsset`

The printer of `shared/utils_json.cc`.  What it prints is given as the document that a reader gets:
a text that `jsonify` has quoted is read as it was.
-/

namespace FtyRest.Shared

open Db
open Ecpp (Json)

/-! ## The asset -/

/-- `db_web_basic_element_t`, the columns that are printed. -/
structure WebBasicElement where
  id : Nat
  name : String
  typeId : Nat
  typeName : String
  parentId : Nat
  subtypeName : String
  status : String
  priority : Nat
  assetTag : String
deriving DecidableEq, Repr

structure WebLink where
  srcId : Nat
  srcName : String
  srcSocket : String
  destSocket : String
deriving DecidableEq, Repr

structure WebParent where
  id : Nat
  name : String
  type : String
  subType : String
deriving DecidableEq, Repr

/-- `db_web_element_t`.  The attributes are a `std::map` from a name to the value and whether it is
read-only. -/
structure WebElement where
  basic : WebBasicElement
  ext : List (String × String × Bool)
  groups : List (Nat × String)
  powers : List WebLink
  parents : List WebParent
  sorted : (ext.map Prod.fst).SortedLT

/-- What the printer asks the database, and the reader's side of quoting: what is read of a text
that is printed between quotes as it is, if that is one text of a document. -/
structure AssetJsonEnv where
  getItem1 : Nat → Option WebElement
  idToNameExtName : Nat → String × String
  freeUSize : Nat → Int
  realpowerNominal : String → Option String
  rackOutletsAvailable : Nat → Option (List (String × Int))
  unquote : String → Option String

/-! ## The attributes -/

/-- A match of `^item[0-9][0-9]*suffix$`. -/
def isNumberedName (item suffix name : String) : Bool :=
  let number := (name.toList.drop item.length).take
    (name.length - item.length - suffix.length)
  !number.isEmpty && number.all Char.isDigit &&
    name.toList = item.toList ++ number ++ suffix.toList

/-- Between the first and the second point. -/
def getOutletNumber (extAttributeName : String) : String :=
  .ofList (((extAttributeName.toList.dropWhile (· ≠ '.')).drop 1).takeWhile (· ≠ '.'))

/-- What an outlet has. -/
inductive OutletAttr where
  | label
  | group
  | type
deriving DecidableEq, Repr

namespace OutletAttr

def name : OutletAttr → String
  | .label => "label"
  | .group => "group"
  | .type => "type"

def suffix (attr : OutletAttr) : String := "." ++ attr.name

end OutletAttr

/-- The values with their `_r` flags. -/
structure Outlet where
  label : String × Bool := ("", false)
  group : String × Bool := ("", false)
  type : String × Bool := ("", false)
deriving DecidableEq, Repr

namespace Outlet

def get (o : Outlet) : OutletAttr → String × Bool
  | .label => o.label
  | .group => o.group
  | .type => o.type

def set (o : Outlet) (attr : OutletAttr) (value : String × Bool) : Outlet :=
  match attr with
  | .label => { o with label := value }
  | .group => { o with group := value }
  | .type => { o with type := value }

end Outlet

/-- `std::map<std::string, Outlet>`, in the order of the keys. -/
abbrev OutletMap := List (String × Outlet)

/-- Finds the outlet, or emplaces an empty one, and sets an attribute of it. -/
def OutletMap.set (outlets : OutletMap) (oNumber : String) (attr : OutletAttr)
    (value : String × Bool) : OutletMap :=
  if (outlets.lookup oNumber).isSome then
    outlets.map fun (n, o) ↦ (n, if n = oNumber then o.set attr value else o)
  else
    outlets.orderedInsert (fun a b ↦ a.1 ≤ b.1) (oNumber, Outlet.set {} attr value)

/-- Where an attribute is printed. -/
inductive ExtKind where
  | hidden
  | outlet (attr : OutletAttr)
  | ip
  | mac
  | fqdn
  | hostname
  | ordinary
deriving DecidableEq, Repr

def extKind (attrName : String) : ExtKind :=
  if attrName = "name" then .hidden
  -- filter location_type (already present)
  else if attrName = "location_type" then .hidden
  else if isNumberedName "outlet." ".label" attrName then .outlet .label
  else if isNumberedName "outlet." ".group" attrName then .outlet .group
  else if isNumberedName "outlet." ".type" attrName then .outlet .type
  else if isNumberedName "ip." "" attrName then .ip
  else if isNumberedName "mac." "" attrName then .mac
  else if isNumberedName "fqdn." "" attrName then .fqdn
  else if isNumberedName "hostname." "" attrName then .hostname
  else .ordinary

section

variable (ext : List (String × String × Bool))

/-- The attributes of a kind, in the order of the map. -/
def ofKind (kind : ExtKind) : List (String × String × Bool) := ext.filter (extKind ·.1 = kind)

def valuesOf (kind : ExtKind) : List String := (ofKind ext kind).map (·.2.1)

def outletsOf : OutletMap :=
  ext.foldl (fun outlets (attrName, value) ↦
    match extKind attrName with
    | .outlet attr => OutletMap.set outlets (getOutletNumber attrName) attr value
    | _ => outlets) []

end

/-! ## The document -/

def jsonBool (b : Bool) : Json := .str (if b then "true" else "false")

def extElement (name value : String) (readOnly : Bool) : Json :=
  .object [(name, .str value), ("read_only", jsonBool readOnly)]

/-- The attributes that an outlet has; an empty one is left out. -/
def outletElements (o : Outlet) : List Json :=
  ([OutletAttr.label, .group, .type].filter fun attr ↦ (o.get attr).1 ≠ "").map fun attr ↦
    .object [("name", .str attr.name), ("value", .str (o.get attr).1),
      ("read_only", jsonBool (o.get attr).2)]

def outletsMember (outlets : OutletMap) : List (String × Json) :=
  if outlets = [] then []
  else [("outlets", .object (outlets.map fun (n, o) ↦ (n, .array (outletElements o))))]

section

variable (env : AssetJsonEnv)

/-- The names of an element, unless the database fails. -/
def elementNames (id : Nat) : Option (String × String) :=
  let names := env.idToNameExtName id
  if names.1 = "" ∧ names.2 = "" then none else some names

/-- A list of values that are printed between quotes as they are. -/
def valuesMember (key : String) (values : List String) : Option (List (String × Json)) :=
  if values = [] then some []
  else do
    let items ← values.mapM env.unquote
    return [(key, .array (items.map .str))]

/-- The location, if the element is located. -/
def locationMembers (basic : WebBasicElement) : List (String × Json) :=
  let (parentName, extParentName) := env.idToNameExtName basic.parentId
  if basic.parentId ≠ 0 then
    let locationType := ((env.getItem1 basic.parentId).map (·.basic.typeName)).getD ""
    [("location_uri", .str ("/api/v1/asset/" ++ parentName)), ("location_id", .str parentName),
      ("location", .str extParentName), ("location_type", .str locationType)]
  else
    [("location", .str ""), ("location_type", .str "")]

def groupElement (oneGroup : Nat × String) : Option Json := do
  let (_, extName) ← elementNames env oneGroup.1
  return .object [("id", .str oneGroup.2), ("name", .str extName)]

/-- A member with a socket, unless there is none. -/
def socketMember (key socket : String) : List (String × Json) :=
  if socket = "" then [] else [(key, .str socket)]

def powerElement (oneLink : WebLink) : Option Json := do
  let (_, extName) ← elementNames env oneLink.srcId
  return .object ([("src_name", .str extName), ("src_id", .str oneLink.srcName)] ++
    socketMember "src_socket" oneLink.srcSocket ++ socketMember "dest_socket" oneLink.destSocket)

/-- Device is special element with more attributes. -/
def powersMember (tmp : WebElement) : Option (List (String × Json)) :=
  if tmp.basic.typeId = AssetType.device then do
    let powers ← tmp.powers.mapM (powerElement env)
    return [("powers", .array powers)]
  else some []

def parentElement (it : WebParent) : Option Json := do
  let (_, extName) ← elementNames env it.id
  return .object [("id", .str it.name), ("name", .str extName), ("type", .str it.type),
    ("sub_type", .str it.subType)]

/-- The subtype and the parents; the subtype of a group is its attribute `type`. -/
def subtypeMembers (tmp : WebElement) : Option (List (String × Json)) :=
  if tmp.basic.typeId = AssetType.group then
    match tmp.ext.lookup "type" with
    | some (value, _) => some [("sub_type", .str (strip value))]
    | none => some []
  else do
    let parents ← tmp.parents.mapM (parentElement env)
    return [("sub_type", .str (strip tmp.basic.subtypeName)), ("parents", .array parents)]

/-- The attributes that are left for `ext`: the ones of a group are without its type. -/
def leftExt (tmp : WebElement) : List (String × String × Bool) :=
  if tmp.basic.typeId = AssetType.group then tmp.ext.filter (·.1 ≠ "type") else tmp.ext

def extMember (tmp : WebElement) : String × Json :=
  let tag := if tmp.basic.assetTag = "" then []
    else [extElement "asset_tag" tmp.basic.assetTag false]
  ("ext", .array (tag ++ (ofKind (leftExt tmp) .ordinary).map fun (name, value, readOnly) ↦
    extElement name value readOnly))

/-- A number, or `null` for a negative one. -/
def countValue (n : Int) : Json := if 0 ≤ n then .int n else .null

def computedMember (tmp : WebElement) : Option (String × Json) :=
  if tmp.basic.typeId = AssetType.rack then do
    let realpower := match env.realpowerNominal tmp.basic.name with
      | some text => Json.str text
      | none => .null
    let res ← env.rackOutletsAvailable tmp.basic.id
    let outlets ← res.mapM fun (name, count) ↦
      (env.unquote name).map fun name ↦ (name, countValue count)
    return ("computed", .object [("freeusize", countValue (env.freeUSize tmp.basic.id)),
      ("realpower.nominal", realpower), ("outlet.available", .object outlets)])
  else some ("computed", .object [])

/-- The document of the asset; `none` when nothing is printed, or no document. -/
def getJsonAsset (elemId : Nat) : Option Json := do
  let tmp ← env.getItem1 elemId
  let (_, assetExtName) ← elementNames env tmp.basic.id
  let powerDevices ← env.unquote ("/api/v1/assets?in=" ++ tmp.basic.name ++
    "&sub_type=epdu,pdu,feed,genset,ups,sts,rackcontroller")
  let groups ← tmp.groups.mapM (groupElement env)
  let powers ← powersMember env tmp
  let subtype ← subtypeMembers env tmp
  let left := leftExt tmp
  let ips ← valuesMember env "ips" (valuesOf left .ip)
  let macs ← valuesMember env "macs" (valuesOf left .mac)
  let fqdns ← valuesMember env "fqdns" (valuesOf left .fqdn)
  let hostnames ← valuesMember env "hostnames" (valuesOf left .hostname)
  let computed ← computedMember env tmp
  return .object ([("id", .str tmp.basic.name), ("power_devices_in_uri", .str powerDevices),
      ("name", .str assetExtName), ("status", .str tmp.basic.status),
      ("priority", .str ("P" ++ toString tmp.basic.priority)), ("type", .str tmp.basic.typeName)] ++
    locationMembers env tmp.basic ++ [("groups", .array groups)] ++ powers ++ subtype ++
    [extMember tmp] ++ ips ++ macs ++ fqdns ++ hostnames ++ outletsMember (outletsOf left) ++
    [computed])

end

end FtyRest.Shared
