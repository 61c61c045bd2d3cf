import FtyRest.Ecpp.Config
import FtyRest.Lib.StateExcept
import FtyRest.Shared.Augtool
import FtyRest.Shared.Cidr
import Mathlib.Data.List.Sort

/-!
# The network configuration

`ecpp/netcfg.ecpp`: the request to change the configuration of an interface.  Its members are
checked and set one after the other, in the tree of the process that all requests share.
-/

namespace FtyRest.Ecpp

open Checks Shared StateExcept

/-- The functions outside the sources: `augtool`, `cxxtools::split` at the blanks of a text, the
texts of libcidr and the quoting of a text for an answer. -/
structure NetcfgApi (τ φ : Type) extends Augeas τ φ where
  split : String → List String
  cidrFromStr : String → Option Cidr
  cidrToStr : CIDRAddress → String
  jsonify : String → String

/-- A request, with the document of its body or the text of the exception that reading it throws. -/
structure NetcfgRequest where
  permitted : Bool
  iface : String
  body : Except String Json

/-- Where the interface is in the tree, its method, and the members to set. -/
structure NetcfgChange where
  address : String
  method : String
  rsi : List (String × Json)

structure NetcfgAnswer where
  iface : String
  method : String
  ip : String
  netmask : String
  gateway : String
  dns : String
deriving DecidableEq, Repr

section

variable {τ φ : Type} (api : NetcfgApi τ φ)

/-- `CIDRAddress` from a text -/
def cidrAddress (text : String) : CIDRAddress := ⟨api.cidrFromStr text⟩

def isNetmask (address : CIDRAddress) : Bool :=
  if address.protocol ≠ 4 then false
  else (cidrAddress api ("1.1.1.1/" ++ api.cidrToStr address)).valid

/-- `^(dhcp|static|none|manual)$` -/
def rexMethod (method : String) : Bool := ["dhcp", "static", "none", "manual"].contains method

/-- `^[[:alpha:]][[:alnum:]]{0,14}$` -/
def rexIface (iface : String) : Bool :=
  match iface.toList with
  | [] => false
  | c :: cs => c.isAlpha && cs.all Char.isAlphanum && cs.length ≤ 14

/-! ## Reading the tree -/

def cmdOut (tree : τ) (cmd : String) (keyValue : Bool) (sep : String) : Except Thrown String :=
  orThrow (getCmdOut (api.output tree cmd) keyValue sep) .outOfRange

/-- `AUG_GET` -/
def augGet (tree : τ) (address name : String) : Except Thrown String :=
  cmdOut api tree ("get " ++ address ++ "/" ++ name) true ""

/-- The files must have been read without an error. -/
def checkFiles (tree : τ) : Except Thrown Unit := do
  let nil ← cmdOut api tree "ls /augeas/files/etc/network/interfaces/error" true ""
  require (nil = "") (.bios "internal-error" "Syntax error in /etc/network/interfaces config file")
  let nil ← cmdOut api tree "ls /augeas/files/etc/resolv.conf/error" true ""
  require (nil = "") (.bios "internal-error" "Syntax error in /etc/resolv.conf config file")

/-- What is checked and read before the members. -/
def netcfgChange (tree : τ) (req : NetcfgRequest) : Except Thrown NetcfgChange := do
  require (req.permitted = true) (.bios "not-authorized" "")
  checkFiles api tree
  require (req.iface ≠ "") (.bios "request-param-required" "iface")
  require (rexIface req.iface = true) (.bios "request-param-bad" "iface")
  let address ← cmdOut api tree
    ("match /files/etc/network/interfaces/iface[*] " ++ req.iface) false ""
  require (address ≠ "") (.bios "element-not-found" req.iface)
  let method ← augGet api tree address "method"
  let si ← req.body.mapError fun what ↦
    .bios "bad-request-document" ("Expected valid json document: " ++ api.jsonify what)
  let rsi ← orThrow (si.getMember req.iface)
    (.bios "bad-request-document"
      ("No configuration for interface '" ++ req.iface ++ "' provided"))
  return { address, method, rsi := rsi.members }

/-- `std::set` of texts, in order. -/
def textSet (texts : List String) : List String := texts.dedup.insertionSort (· ≤ ·)

/-- The body of the answer to a change. -/
def netcfgAnswer (tree : τ) (iface address : String) : Except Thrown NetcfgAnswer := do
  let method ← augGet api tree address "method"
  let ip ← augGet api tree address "address"
  let netmask ← augGet api tree address "netmask"
  let gateway ← augGet api tree address "gateway"
  let dnsRawData ← cmdOut api tree
    "match /files/etc/network/interfaces/iface[*]/dns-nameservers" true " "
  let dnsSet := textSet (api.split dnsRawData)
  let dnsStr := (dnsSet.map fun ip ↦ "\"" ++ ip ++ "\",").foldl (· ++ ·) ""
  -- `substr` with a position behind the end of an empty text
  require (dnsStr ≠ "") .outOfRange
  let dns := String.ofList ((dnsStr.toList.drop 1).take (dnsStr.length - 3))
  return { iface, method, ip, netmask, gateway, dns }

/-! ## Setting the members -/

/-- A program over the process. -/
abbrev AugProg (τ φ α : Type) := Prog (Augtool τ φ) Thrown α

def runCmd (cmd : String) : AugProg τ φ Unit := change (Augtool.runCmd api.toAugeas cmd)

def wrongValue (name method : String) : Thrown :=
  .bios "parameter-conflict" ("Wrong value for '" ++ name ++
    "' setting or setting not expected for method " ++ method ++ ".")

/-- `AUG_SET`, which tells whether it was the member's turn. -/
def augSet (address method name : String) (check : String → Bool) (it : String × Json) :
    AugProg τ φ Bool :=
  if it.1 = name then do
    look fun _ ↦ require (check it.2.getValue = true) (wrongValue name method)
    runCmd api ("set " ++ address ++ "/" ++ name ++ " " ++ it.2.getValue)
    return true
  else
    return false

/-- What goes with a method other than `static`. -/
def rmStatic (address method : String) : AugProg τ φ Unit :=
  if method ≠ "static" then do
    runCmd api ("rm " ++ address ++ "/address")
    runCmd api ("rm " ++ address ++ "/netmask")
    runCmd api ("rm " ++ address ++ "/gateway")
  else
    return ()

/-- The gateway can be removed. -/
def setGateway (address method : String) (it : String × Json) : AugProg τ φ Bool :=
  if it.1 = "gateway" ∧ method = "static" then
    if it.2.getValue = "" then do
      runCmd api ("rm " ++ address ++ "/gateway")
      return true
    else do
      look fun _ ↦ require ((cidrAddress api it.2.getValue).valid = true)
        (wrongValue "gateway" method)
      runCmd api ("set " ++ address ++ "/gateway " ++ it.2.getValue)
      return true
  else
    return false

/-- The part of an output line up to `]`, for the interfaces that get name servers. -/
def dnsIface (iface : String) : Option String :=
  if ¬ "lo".toList <:+: iface.toList ∧ '*' ∉ iface.toList ∧ ']' ∈ iface.toList then
    some (String.ofList (iface.toList.take (iface.toList.idxOf ']' + 1)))
  else
    none

/-- The commands that give a list of name servers to each interface. -/
def dnsCommands (tree : τ) (nsList : String) : List String :=
  let interfaces := api.output tree "match /files/etc/network/interfaces/iface[*]"
  (interfaces.filterMap dnsIface).map fun subIface ↦
    if nsList = "" then "rm " ++ subIface ++ "/dns-nameservers"
    else "set " ++ subIface ++ "/dns-nameservers '" ++ nsList ++ "'"

def badDns (what : String) : Thrown :=
  .bios "bad-request-document" ("Wrong value for DNS setting - " ++ what ++ " expected")

/-- The name servers of a document, in one text. -/
def nsList (doc : Json) : Except Thrown String :=
  match doc with
  | .array items => do
      let vals ← items.mapM fun i ↦ do
        require ((cidrAddress api i.getValue).valid = true) (badDns "array of IPs")
        return i.getValue
      return vals.foldl (fun list val ↦ list ++ (if list = "" then "" else " ") ++ val) ""
  | _ => .error (badDns "array")

def setNameservers (it : String × Json) : AugProg τ φ Bool :=
  if it.1 = "nameservers" then do
    let list ← look fun _ ↦ nsList api it.2
    let cmds ← look fun s ↦ .ok (dnsCommands api s.tree list)
    cmds.forM (runCmd api)
    return true
  else
    return false

/-- One member; the result is the method that the interface has now. -/
def setMember (address method : String) (it : String × Json) : AugProg τ φ String := do
  let handledMethod ← augSet api address method "method" (fun _ ↦ rexMethod method) it
  let method ← look fun s ↦ augGet api s.tree address "method"
  let handledAddress ← augSet api address method "address"
    (fun val ↦ (cidrAddress api val).valid && method = "static") it
  let handledNetmask ← augSet api address method "netmask"
    (fun val ↦ isNetmask api (cidrAddress api val) && method = "static") it
  rmStatic api address method
  let handledGateway ← setGateway api address method it
  let handledNameservers ← setNameservers api it
  look fun _ ↦ require
    ((handledMethod || handledAddress || handledNetmask || handledGateway ||
      handledNameservers) = true)
    (.bios "bad-request-document" ("Invalid option '" ++ it.1 ++ "'"))
  return method

/-- Commits everything, and makes sure that the data works. -/
def commitNetcfg (iface address : String) : AugProg τ φ NetcfgAnswer := do
  change (Augtool.save api.toAugeas)
  look fun s ↦ checkFiles api s.tree
  look fun s ↦ netcfgAnswer api s.tree iface address

/-- The PUT handler. -/
def putNetcfg (req : NetcfgRequest) : AugProg τ φ NetcfgAnswer := do
  let c ← look fun s ↦ netcfgChange api s.tree req
  let _ ← c.rsi.foldlM (setMember api c.address) c.method
  commitNetcfg api req.iface c.address

/-- The process takes the next request. -/
def netcfgStep (s : Augtool τ φ) (req : NetcfgRequest) :
    Augtool τ φ × Except Thrown NetcfgAnswer :=
  let (r, s) := run (putNetcfg api req) s
  ({ s with request := s.request + 1 }, r)

end

end FtyRest.Ecpp
