import FtyRest.Lib.JsonText
import FtyRest.Shared.UtilsJson
import FtyRest.Web.AssetComputed

/-!
# The text of `getJsonAsset`

The same printer of `shared/utils_json.cc`, with the characters that it writes.  `jsonify` is the
only part that quotes; some values are put between quotes as they are.
-/

namespace FtyRest.Shared

open Db JsonText Web

/-! ## Pieces of the text -/

/-- `getJsonAsset` with the outlets of `rack_outlets_available`. -/
def AssetJsonEnv.withRack (env : AssetJsonEnv) (db : RackDb) : AssetJsonEnv :=
  { env with rackOutletsAvailable := Web.rackOutletsAvailable db }

@[simp]
theorem AssetJsonEnv.withRack_freeUSize (env : AssetJsonEnv) (db : RackDb) :
    (env.withRack db).freeUSize = env.freeUSize := rfl

@[simp]
theorem AssetJsonEnv.withRack_realpowerNominal (env : AssetJsonEnv) (db : RackDb) :
    (env.withRack db).realpowerNominal = env.realpowerNominal := rfl

/-- What a counter of 32 bits holds. -/
def counter32 (i : Nat) : Nat := i % 2 ^ 32

def boolText (b : Bool) : String := if b then "true" else "false"

def quotedText (value : String) : String := "\"" ++ value ++ "\""

/-- A number, or `null` for a negative one. -/
def countText (n : Int) : String := if 0 ≤ n then toString n else "null"

section

variable (jsonify : String → String → String) (env : AssetJsonEnv)

def headText (basic : WebBasicElement) (assetExtName : String) : String :=
  jsonify "id" basic.name ++ "," ++
    "\"power_devices_in_uri\": \"/api/v1/assets?in=" ++ basic.name ++
    "&sub_type=epdu,pdu,feed,genset,ups,sts,rackcontroller\"" ++ "," ++
    jsonify "name" assetExtName ++ "," ++
    jsonify "status" basic.status ++ "," ++
    jsonify "priority" ("P" ++ toString basic.priority) ++ "," ++
    jsonify "type" basic.typeName ++ ","

/-- The location, if the element is located. -/
def locationText (basic : WebBasicElement) : String :=
  let (parentName, extParentName) := env.idToNameExtName basic.parentId
  if basic.parentId ≠ 0 then
    let locationType := ((env.getItem1 basic.parentId).map (·.basic.typeName)).getD ""
    jsonify "location_uri" ("/api/v1/asset/" ++ parentName) ++ "," ++
      jsonify "location_id" parentName ++ "," ++
      jsonify "location" extParentName ++ "," ++
      jsonify "location_type" locationType ++ ","
  else
    "\"location\":\"\"" ++ "," ++ "\"location_type\":\"\"" ++ ","

def groupText (oneGroup : Nat × String) : Option String := do
  let (_, extName) ← elementNames env oneGroup.1
  return "\x7b" ++ jsonify "id" oneGroup.2 ++ "," ++ jsonify "name" extName ++ "\x7d"

def groupsText (tmp : WebElement) : Option String := do
  let groups ← tmp.groups.mapM (groupText jsonify env)
  return "\"groups\": [" ++ countedText counter32 "" groups ++ "]"

/-- A member with a socket, unless there is none. -/
def socketText (key socket : String) : String :=
  if socket = "" then "" else "," ++ jsonify key socket

def powerText (oneLink : WebLink) : Option String := do
  let (_, extName) ← elementNames env oneLink.srcId
  return "\x7b" ++ jsonify "src_name" extName ++ "," ++ jsonify "src_id" oneLink.srcName ++
    socketText jsonify "src_socket" oneLink.srcSocket ++
    socketText jsonify "dest_socket" oneLink.destSocket ++ "\x7d"

/-- Device is special element with more attributes. -/
def powersText (tmp : WebElement) : Option String :=
  if tmp.basic.typeId = AssetType.device then do
    let powers ← tmp.powers.mapM (powerText jsonify env)
    return ", \"powers\": [" ++ countedText counter32 "" powers ++ "]"
  else some ""

def parentText (it : WebParent) : Option String := do
  let (_, extName) ← elementNames env it.id
  return "\x7b" ++ jsonify "id" it.name ++ "," ++ jsonify "name" extName ++ "," ++
    jsonify "type" it.type ++ "," ++ jsonify "sub_type" it.subType ++ "\x7d"

/-- The subtype and the parents; the subtype of a group is its attribute `type`. -/
def subtypeText (tmp : WebElement) : Option String :=
  if tmp.basic.typeId = AssetType.group then
    match tmp.ext.lookup "type" with
    | some (value, _) => some ("," ++ jsonify "sub_type" (strip value))
    | none => some ""
  else do
    let parents ← tmp.parents.mapM (parentText jsonify env)
    return "," ++ jsonify "sub_type" (strip tmp.basic.subtypeName) ++
      ", \"parents\" : [" ++ countedText id " " parents ++ "]"

/-! ## The attributes -/

/-- What the loop over the attributes keeps; `json` is the text of `ext` with its flag
`isExtCommaNeeded`. -/
structure ExtLoop where
  json : String × Bool
  outlets : OutletMap := []
  ips : List String := []
  macs : List String := []
  fqdns : List String := []
  hostnames : List String := []

def extElementText (name value : String) (readOnly : Bool) : String :=
  "\x7b" ++ jsonify name value ++ ",\"read_only\" :" ++ boolText readOnly ++ "\x7d"

def assetTagText (assetTag : String) : String :=
  "\x7b" ++ jsonify "asset_tag" assetTag ++ ", \"read_only\" : " ++ boolText false ++ "\x7d"

def extStep (loop : ExtLoop) (oneExt : String × String × Bool) : ExtLoop :=
  let (attrName, attrValue, isReadOnly) := oneExt
  match extKind attrName with
  | .hidden => loop
  | .outlet attr =>
      let oNumber := getOutletNumber attrName
      { loop with outlets := loop.outlets.set oNumber attr (attrValue, isReadOnly) }
  | .ip => { loop with ips := loop.ips ++ [attrValue] }
  | .mac => { loop with macs := loop.macs ++ [attrValue] }
  | .fqdn => { loop with fqdns := loop.fqdns ++ [attrValue] }
  | .hostname => { loop with hostnames := loop.hostnames ++ [attrValue] }
  | .ordinary =>
      let text := extElementText jsonify attrName attrValue isReadOnly
      { loop with json := appendItem loop.json text }

def extLoop (tmp : WebElement) : ExtLoop :=
  let assetTag := tmp.basic.assetTag
  (leftExt tmp).foldl (extStep jsonify)
    { json := if assetTag ≠ "" then (assetTagText jsonify assetTag, true) else ("", false) }

/-- A list of values between quotes. -/
def valuesText (start : String) (values : List String) : String :=
  if values = [] then ""
  else start ++ countedText counter32 "" (values.map quotedText) ++ "]"

/-- An attribute of an outlet; an empty one is left out. -/
def outletAttrStep (o : Outlet) (json : String × Bool) (attr : OutletAttr) : String × Bool :=
  let (value, readOnly) := o.get attr
  if value = "" then json
  else appendItem json ("\x7b" ++ quotedText "name" ++ ":" ++ quotedText attr.name ++ "," ++
    jsonify "value" value ++ ",\"read_only\" : " ++ boolText readOnly ++ "\x7d")

def outletText (oneOutlet : String × Outlet) : String :=
  quotedText oneOutlet.1 ++ " : [" ++
    ([OutletAttr.label, .group, .type].foldl (outletAttrStep jsonify oneOutlet.2) ("", false)).1 ++
    "]"

def outletsText (outlets : OutletMap) : String :=
  if outlets = [] then ""
  else ", \"outlets\": \x7b" ++ countedText counter32 "" (outlets.map (outletText jsonify)) ++ "\x7d"

/-! ## The text -/

def availableText (it : String × Int) : String := quotedText it.1 ++ ":" ++ countText it.2

def rackText (basic : WebBasicElement) : Option String := do
  let realpowerNominal := (env.realpowerNominal basic.name).getD "null"
  let res ← env.rackOutletsAvailable basic.id
  return "\"freeusize\":" ++ countText (env.freeUSize basic.id) ++
    ",\"realpower.nominal\":" ++ realpowerNominal ++ ", \"outlet.available\" : \x7b" ++
    countedText id "" (res.map availableText) ++ "\x7d"

def computedText (basic : WebBasicElement) : Option String :=
  (if basic.typeId = AssetType.rack then rackText env basic else some "").map fun rack ↦
    ", \"computed\" : \x7b" ++ rack ++ "\x7d"

/-- The text of the asset; `none` is a failure of the database. -/
def assetText (elemId : Nat) : Option String := do
  let tmp ← env.getItem1 elemId
  let (_, assetExtName) ← elementNames env tmp.basic.id
  let groups ← groupsText jsonify env tmp
  let powers ← powersText jsonify env tmp
  let subtype ← subtypeText jsonify env tmp
  let ext := extLoop jsonify tmp
  let computed ← computedText env tmp.basic
  return "\x7b" ++ headText jsonify tmp.basic assetExtName ++ locationText jsonify env tmp.basic ++
    groups ++ powers ++ subtype ++ ", \"ext\" : [" ++ ext.json.1 ++ "]" ++
    valuesText ", \"ips\" : [" ext.ips ++ valuesText ", \"macs\" : [" ext.macs ++
    valuesText ", \"fqdns\" : [" ext.fqdns ++ valuesText " , \"hostnames\" : [" ext.hostnames ++
    outletsText jsonify ext.outlets ++ computed ++ "\x7d"

/-- `getJsonAsset`: nothing is printed when the database fails. -/
def getJsonAssetText (elemId : Nat) : String := (assetText jsonify env elemId).getD ""

end

end FtyRest.Shared
