import FtyRest.Ecpp.Json
import FtyRest.Lib.Checks
import FtyRest.Lib.Stoi

/-!
# The configuration files

`ecpp/config.ecpp`: the values of the configuration are items of files in the format of ZPL, and
they are stored and loaded as JSON.  The files and the search for an item are a record of functions
here, since the library that they come from is not part of the sources.
-/

namespace FtyRest.Ecpp

open Checks Stoi

/-- `zconfig_t` -/
inductive ZConfig where
  | node (name : String) (value : Option String) (children : List ZConfig)
deriving Repr

namespace ZConfig

def name : ZConfig → String
  | .node name _ _ => name

def value : ZConfig → Option String
  | .node _ value _ => value

def children : ZConfig → List ZConfig
  | .node _ _ children => children

/-- The item at a position: which child to take, and which child of that one, and so on. -/
def itemAt : ZConfig → List Nat → Option ZConfig
  | root, [] => some root
  | root, i :: pos =>
      match root.children[i]? with
      | none => none
      | some child => child.itemAt pos

def replaceAt : ZConfig → List Nat → ZConfig → ZConfig
  | _, [], item => item
  | root, i :: pos, item =>
      match root.children[i]? with
      | none => root
      | some child =>
          .node root.name root.value (root.children.set i (child.replaceAt pos item))

end ZConfig

/-- A text as a C function sees it. -/
def cStr (text : String) : String := String.ofList (text.toList.takeWhile (· ≠ '\x00'))

mutual

/-- `operator<<=` from a document to an item, which keeps its name. -/
def store (name : String) : Json → ZConfig
  | .null => .node name none []
  | .str text => .node name (some (cStr text)) []
  | .int value => .node name (some (toString value)) []
  | .object members => .node name (some "") (storeMembers members)
  | .array items => .node name (some "") (storeItems 0 items)

def storeMembers : List (String × Json) → List ZConfig
  | [] => []
  | (name, child) :: members => store (cStr name) child :: storeMembers members

def storeItems (cpt : Nat) : List Json → List ZConfig
  | [] => []
  | child :: items => store (toString cpt) child :: storeItems (cpt + 1) items

end

/-- What can be thrown: an error of the REST API with its argument, or an exception that nobody
catches. -/
inductive Thrown where
  | bios (error arg : String)
  | outOfRange
  | nullItem
deriving DecidableEq, Repr

/-- The value of an item that has no children. -/
def loadValue : Option String → Except Thrown Json
  | none => .ok .null
  | some value =>
      match stoi value with
      | .ok n pos => if pos ≠ value.length then .ok (.str value) else .ok (.int n)
      | .invalidArgument => .ok (.str value)
      | .outOfRange => .error .outOfRange

/-- Whether the items are named by their positions. -/
def isArrayFrom (cpt : Nat) : List ZConfig → Bool
  | [] => true
  | child :: children => toString cpt = child.name && isArrayFrom (cpt + 1) children

mutual

/-- `operator<<=` from an item to a document. -/
def load : ZConfig → Except Thrown Json
  | .node _ value children =>
      if children.isEmpty then loadValue value
      else if isArrayFrom 0 children then do
        return .array (← loadItems children)
      else do
        return .object (← loadMembers children)

def loadItems : List ZConfig → Except Thrown (List Json)
  | [] => return []
  | child :: children => do
      let first ← load child
      let rest ← loadItems children
      return first :: rest

def loadMembers : List ZConfig → Except Thrown (List (String × Json))
  | [] => return []
  | child :: children => do
      let first ← load child
      let rest ← loadMembers children
      return (child.name, first) :: rest

end

/-! ## The files -/

/-- The functions of the library, over the state of the files: reading and writing a file, and the
position that a path leads to.  `put` enters an empty item where a path leads. -/
structure ZConfigApi (φ : Type) where
  load : φ → String → Option ZConfig
  save : φ → String → ZConfig → φ × Int
  locate : ZConfig → String → Option (List Nat)
  put : ZConfig → String → ZConfig

structure ConfigEntry where
  filepath : String
  treepath : String
deriving DecidableEq, Repr

abbrev ConfigMap := List (String × ConfigEntry)

/-- What `loadMapping` makes of the text of the mapping. -/
def mapping : ConfigMap :=
  [("BIOS_SNMP_COMMUNITY_NAME", ⟨"/etc/fty-email/fty-email.cfg", "snmp/community"⟩),
    ("language", ⟨"/etc/fty-email/fty-email.cfg", "server/language"⟩),
    ("BIOS_NUT_POLLING_INTERVAL", ⟨"/etc/fty-nut/fty-nut.cfg", "nut/polling_interval"⟩),
    ("BIOS_SMTP_SERVER", ⟨"/etc/fty-email/fty-email.cfg", "smtp/server"⟩),
    ("BIOS_SMTP_PORT", ⟨"/etc/fty-email/fty-email.cfg", "smtp/port"⟩),
    ("BIOS_SMTP_ENCRYPT", ⟨"/etc/fty-email/fty-email.cfg", "smtp/encryption"⟩),
    ("BIOS_SMTP_VERIFY_CA", ⟨"/etc/fty-email/fty-email.cfg", "smtp/verify_ca"⟩),
    ("BIOS_SMTP_USER", ⟨"/etc/fty-email/fty-email.cfg", "smtp/user"⟩),
    ("BIOS_SMTP_PASSWD", ⟨"/etc/fty-email/fty-email.cfg", "smtp/password"⟩),
    ("BIOS_SMTP_FROM", ⟨"/etc/fty-email/fty-email.cfg", "smtp/from"⟩),
    ("BIOS_SMTP_SMS_GATEWAY", ⟨"/etc/fty-email/fty-email.cfg", "smtp/smsgateway"⟩),
    ("BIOS_SMTP_USE_AUTHENTICATION", ⟨"/etc/fty-email/fty-email.cfg", "smtp/use_auth"⟩),
    ("BIOS_METRIC_STORE_AGE_RT", ⟨"/etc/fty-metric-store/fty-metric-store.cfg", "store/rt"⟩),
    ("BIOS_METRIC_STORE_AGE_15m", ⟨"/etc/fty-metric-store/fty-metric-store.cfg", "store/15m"⟩),
    ("BIOS_METRIC_STORE_AGE_30m", ⟨"/etc/fty-metric-store/fty-metric-store.cfg", "store/30m"⟩),
    ("BIOS_METRIC_STORE_AGE_1h", ⟨"/etc/fty-metric-store/fty-metric-store.cfg", "store/1h"⟩),
    ("BIOS_METRIC_STORE_AGE_8h", ⟨"/etc/fty-metric-store/fty-metric-store.cfg", "store/8h"⟩),
    ("BIOS_METRIC_STORE_AGE_24h", ⟨"/etc/fty-metric-store/fty-metric-store.cfg", "store/24h"⟩),
    ("BIOS_METRIC_STORE_AGE_7d", ⟨"/etc/fty-metric-store/fty-metric-store.cfg", "store/7d"⟩),
    ("BIOS_METRIC_STORE_AGE_30d", ⟨"/etc/fty-metric-store/fty-metric-store.cfg", "store/30d"⟩),
    ("FTY_DISCOVERY_TYPE", ⟨"/etc/fty-discovery/fty-discovery.cfg", "discovery/type"⟩),
    ("FTY_DISCOVERY_SCANS", ⟨"/etc/fty-discovery/fty-discovery.cfg", "discovery/scans"⟩),
    ("FTY_DISCOVERY_IPS", ⟨"/etc/fty-discovery/fty-discovery.cfg", "discovery/ips"⟩),
    ("FTY_DISCOVERY_DOCUMENTS", ⟨"/etc/fty-discovery/fty-discovery.cfg", "discovery/documents"⟩),
    ("FTY_DISCOVERY_DEFAULT_VALUES_STATUS",
      ⟨"/etc/fty-discovery/fty-discovery.cfg", "defaultValuesAux/status"⟩),
    ("FTY_DISCOVERY_DEFAULT_VALUES_PRIORITY",
      ⟨"/etc/fty-discovery/fty-discovery.cfg", "defaultValuesAux/priority"⟩),
    ("FTY_DISCOVERY_DEFAULT_VALUES_PARENT",
      ⟨"/etc/fty-discovery/fty-discovery.cfg", "defaultValuesAux/parent"⟩),
    ("FTY_DISCOVERY_DEFAULT_VALUES_LINK_SRC",
      ⟨"/etc/fty-discovery/fty-discovery.cfg", "defaultValuesLinks/0/src"⟩),
    ("FTY_DISCOVERY_SCANS_DISABLED",
      ⟨"/etc/fty-discovery/fty-discovery.cfg", "disabled/scans_disabled"⟩),
    ("FTY_DISCOVERY_IPS_DISABLED",
      ⟨"/etc/fty-discovery/fty-discovery.cfg", "disabled/ips_disabled"⟩),
    ("FTY_DISCOVERY_PROTOCOLS", ⟨"/etc/fty-discovery/fty-discovery.cfg", "discovery/protocols"⟩),
    ("FTY_DISCOVERY_DUMP_POOL",
      ⟨"/etc/fty-discovery/fty-discovery.cfg", "parameters/maxDumpPoolNumber"⟩),
    ("FTY_DISCOVERY_SCAN_POOL",
      ⟨"/etc/fty-discovery/fty-discovery.cfg", "parameters/maxScanPoolNumber"⟩),
    ("FTY_DISCOVERY_SCAN_TIMEOUT",
      ⟨"/etc/fty-discovery/fty-discovery.cfg", "parameters/nutScannerTimeOut"⟩),
    ("FTY_DISCOVERY_DUMP_LOOPTIME",
      ⟨"/etc/fty-discovery/fty-discovery.cfg", "parameters/dumpDataLoopTime"⟩),
    ("FTY_SESSION_TIMEOUT_NO_ACTIVITY", ⟨"/etc/fty/fty-session.cfg", "timeout/no_activity"⟩),
    ("FTY_SESSION_TIMEOUT_LEASE", ⟨"/etc/fty/fty-session.cfg", "timeout/lease_time"⟩),
    ("ETN_GRAPHITE_FREQUENCY", ⟨"/etc/etn-graphite/etn-graphite.cfg", "configuration/frequency"⟩),
    ("ETN_GRAPHITE_SERVER_ADDR", ⟨"/etc/etn-graphite/etn-graphite.cfg", "server/address"⟩),
    ("ETN_GRAPHITE_SERVER_PORT", ⟨"/etc/etn-graphite/etn-graphite.cfg", "server/port"⟩),
    ("ETN_GRAPHITE_BASENAME", ⟨"/etc/etn-graphite/etn-graphite.cfg", "configuration/basename"⟩),
    ("ETN_GRAPHITE_ACTIVATE", ⟨"/etc/etn-graphite/etn-graphite.cfg", "configuration/activated"⟩),
    ("ETN_AUTOMATION_NOTIF_EMAIL", ⟨"/etc/fty/etn-automation.cfg", "notifications"⟩)]

section

variable {φ : Type} (api : ZConfigApi φ) (configMap : ConfigMap)

/-- The item that `zconfig_locate` gives. -/
def locateItem (root : ZConfig) (treepath : String) : Option (List Nat × ZConfig) :=
  match api.locate root treepath with
  | none => none
  | some pos => (root.itemAt pos).map fun child ↦ (pos, child)

def loadConfig (fs : φ) (key : String) : Except Thrown Json :=
  match configMap.lookup key with
  | none => .error (.bios "element-not-found" key)
  | some entry =>
      match api.load fs entry.filepath with
      | none => .error (.bios "element-not-found" entry.filepath)
      | some root =>
          match locateItem api root entry.treepath with
          | some (_, child) => Ecpp.load child
          | none =>
              -- old configuration files have no address of the graphite server
              if key = "ETN_GRAPHITE_SERVER_ADDR" then
                match locateItem api (api.put root entry.treepath) entry.treepath with
                | some (_, child) => Ecpp.load child
                | none => .error (.bios "element-not-found" entry.treepath)
              else
                .error (.bios "element-not-found" entry.treepath)

/-- The tree that is saved for a value, unless its item cannot be entered. -/
def storedTree (root : ZConfig) (treepath : String) (value : Json) : Option ZConfig :=
  -- an entry that is missing is created
  let root := if (locateItem api root treepath).isSome then root else api.put root treepath
  (locateItem api root treepath).map fun (pos, child) ↦
    root.replaceAt pos (store child.name value)

def saveConfig (fs : φ) (key : String) (value : Json) : φ × Except Thrown Unit :=
  match configMap.lookup key with
  | none => (fs, .error (.bios "element-not-found" key))
  | some entry =>
      match api.load fs entry.filepath with
      | none => (fs, .error (.bios "element-not-found" entry.filepath))
      | some root =>
          match storedTree api root entry.treepath value with
          | none => (fs, .error .nullItem)
          | some root =>
              let (fs, r) := api.save fs entry.filepath root
              if r ≠ 0 then
                (fs, .error (.bios "internal-error" ("Failed to save file " ++ entry.filepath)))
              else
                (fs, .ok ())

/-- The members of a request, which are saved one after the other. -/
def saveMembers (fs : φ) : List (String × Json) → φ × Except Thrown Unit
  | [] => (fs, .ok ())
  | (key, value) :: members =>
      match saveConfig api configMap fs key value with
      | (fs, .error e) => (fs, .error e)
      | (fs, .ok ()) => saveMembers fs members

/-- The POST handler. -/
def postConfig (fs : φ) (requestDoc : Json) : φ × Except Thrown Unit :=
  match requestDoc with
  | .object members => saveMembers api configMap fs members
  | _ => (fs, .error (.bios "bad-request-document" "Request document must be an object."))

end

end FtyRest.Ecpp
