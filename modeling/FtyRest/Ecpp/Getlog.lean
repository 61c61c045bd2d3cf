import FtyRest.Ecpp.GetlogGzip
import FtyRest.Ecpp.Json
import FtyRest.Lib.Checks
import FtyRest.Lib.StateExcept
import Mathlib.Data.List.Infix

/-!
# The logs

The request of `getlog_GET.ecpp`: a log is a file, or the output of a command, or an archive of
logs that is made for the request.  What is made for the request are files below `/tmp`.
-/

namespace FtyRest.Ecpp

open Checks StateExcept

/-- The files by their paths, and whether there is the directory that an archive is made of. -/
structure Fs where
  files : String → Option (List UInt8)
  targetdir : Bool

namespace Fs

def remove (path : String) (fs : Fs) : Fs :=
  { fs with files := fun p ↦ if p = path then none else fs.files p }

end Fs

/-- The commands that are run, with the words of their lines. -/
inductive Command where
  /-- `/bin/journalctl -D <dirname> --no-pager -l`, with ` -x` or ` -o cat`, and with
  ` --since "3 hours ago" --until "now"`; `> <logfile>` -/
  | journalctl (dirname : String) (truncate extensive : Bool) (logfile : String)
  /-- `/bin/ps -edf > <logfile>` -/
  | ps (logfile : String)
  /-- `/bin/ip <param> > <logfile>` -/
  | ip (param logfile : String)
  /-- `cp /etc/network/interfaces <logfile>` -/
  | interfaces (logfile : String)
  /-- `/usr/bin/curl -sS -k -o <logfile> -X <method> <url>` -/
  | curl (method url logfile : String)
  /-- `rm -fr /tmp/IPM2-logs` -/
  | rmdir
  /-- `mkdir -p /tmp/IPM2-logs` -/
  | mkdir
  /-- `cp <files> /tmp/IPM2-logs` -/
  | cp (files : List String)
  /-- `/bin/tar cf <logfile> -C /tmp/ IPM2-logs` -/
  | tar (logfile : String)
  /-- `/usr/bin/7z a -p'<passphrase>' <crypted> <logfile>` -/
  | sevenZip (passphrase crypted logfile : String)
deriving DecidableEq, Repr

namespace Command

/-- The file that the command writes. -/
def output : Command → Option String
  | journalctl _ _ _ logfile => some logfile
  | ps logfile => some logfile
  | ip _ logfile => some logfile
  | interfaces logfile => some logfile
  | curl _ _ logfile => some logfile
  | rmdir => none
  | mkdir => none
  | cp _ => none
  | tar logfile => some logfile
  | sevenZip _ crypted _ => some crypted

end Command

/-- archive bits def. -/
def bALL : Nat := 1
def bFCT : Nat := 2

structure LogData where
  baseName : String
  archBitmask : Nat
  isLogicalFile : Bool
  filePath : String
deriving DecidableEq, Repr

/-- supported (baseName, archBitmask, isLogicalFile, filePath) tuples -/
def logsData : List LogData := [
  -- logical logfiles
  ⟨"www-audit", bALL ||| bFCT, true, "/var/log/app-audit/www-audit.log"⟩,
  ⟨"alarms-audit", bALL ||| bFCT, true, "/var/log/app-audit/alarms-audit.log"⟩,
  ⟨"automation-audit", bALL ||| bFCT, true, "/var/log/app-audit/automation-audit.log"⟩,
  ⟨"email-audit", bALL ||| bFCT, true, "/var/log/app-audit/email-audit.log"⟩,
  ⟨"ai-audit", bALL ||| bFCT, true, "/var/log/app-audit/ai-audit.log"⟩,
  ⟨"connectors-audit", bALL ||| bFCT, true, "/var/log/app-audit/connectors-audit.log"⟩,
  ⟨"mass-mgr-audit", bALL ||| bFCT, true,
    "/var/log/etn-mass-management/mass-management-audit.log"⟩,
  ⟨"verify-fs", bALL ||| bFCT, true, "/var/log/verify-fs.log"⟩,
  ⟨"emc4j-audit", bALL, true, "/var/log/etn-emc4j-ipm2/karaf.log"⟩,
  ⟨"release", bALL, true, "/etc/release-details.json"⟩,
  ⟨"messages", bALL, true, "/var/log/messages"⟩,
  ⟨"firmwares", bALL, true, "/var/lib/fty/etn-mass-management/settings.cfg"⟩,
  -- cmd export to logfiles
  ⟨"emc4j-bundle", bALL, false, "/tmp/etn-emc4j-bundle.log"⟩,
  ⟨"emc4j-jdbc", bALL, false, "/tmp/etn-emc4j-jdbc.log"⟩,
  ⟨"emc4j-http", bALL, false, "/tmp/etn-emc4j-http.log"⟩,
  ⟨"journald-3h", bALL, false, "/tmp/journald-3h.log"⟩,
  ⟨"journald-all", bALL, false, "/tmp/journald-all.log"⟩,
  ⟨"processes", bALL, false, "/tmp/processes.log"⟩,
  ⟨"ip-addr", bALL, false, "/tmp/ip-addr.log"⟩,
  ⟨"ip-route", bALL, false, "/tmp/ip-route.log"⟩,
  ⟨"ip-interfaces", bALL, false, "/tmp/ip-interfaces.log"⟩,
  -- archives (archBitmask must be 0)
  ⟨"ALL", 0, false, "/tmp/log_all.tar"⟩,
  ⟨"FCT", 0, false, "/tmp/log_fct.tar"⟩]

/-- rotated logfile exceptions -/
def rotatedNames : List String :=
  ["www-audit.log", "alarms-audit.log", "automation-audit.log", "email-audit.log", "ai-audit.log",
   "connectors-audit.log", "mass-management-audit.log", "verify-fs.log", "karaf.log"]

namespace LogData

variable (data : LogData)

def isArchive : Bool := data.baseName = "ALL" || data.baseName = "FCT"

/-- only encrypt. full arch. -/
def doEncryption : Bool := data.baseName = "ALL"

def archiveBit : Nat :=
  if data.baseName = "ALL" then bALL else if data.baseName = "FCT" then bFCT else 0

/-- What is copied of the log into an archive. -/
def cpArg : String :=
  if rotatedNames.any fun name ↦ decide (name.toList <:+: data.filePath.toList) then
    data.filePath ++ "*"
  else data.filePath

end LogData

/-- What a request asks its surroundings. -/
structure GetlogEnv where
  system : Fs → Command → Fs × Int
  /-- `/var/log/journal` can be opened -/
  journalDir : Bool
  readable : String → Bool
  /-- The version and the passphrase of the configuration, when it can be read. -/
  conf : Option (Option String × Option String)
  nodename : Option String
  /-- `calendar_to_datetime` of the time -/
  timestamp : Option String
  mimetype : String → String
  deflator : DeflateStream
  raw : Nat → Vector UInt8 32768

structure GetlogArgs where
  listLognames : String := ""
  lognameBase : String := ""
  lognameExt : String := ""
deriving DecidableEq, Repr

structure GetlogReply where
  contentType : String
  contentLength : Option Nat := none
  contentDisposition : Option String := none
  body : List UInt8

/-- What is answered: the names of the logs, or a log. -/
inductive GetlogAnswer where
  | names (text : String)
  | log (reply : GetlogReply)

section

variable (env : GetlogEnv)

/-- `remove`, whose result is not looked at. -/
def removeFile (path : String) : Prog Fs HttpDie Unit := change (Fs.remove path)

def runCommand (cmd : Command) : Prog Fs HttpDie Int :=
  call fun fs ↦ ((env.system fs cmd).2, (env.system fs cmd).1)

/-- `access(path, F_OK)` -/
def accessible (path : String) : Prog Fs HttpDie Bool := look fun fs ↦ .ok (fs.files path).isSome

/-! ## The outputs of commands -/

/-- The command that exports a log, and what is told when it fails. -/
def exportCommand (basename logfile : String) : Option (Command × String) :=
  let dirname := if env.journalDir then "/var/log/journal" else "/run/log/journal"
  let karaf := "http://localhost:8181/jolokia/read/org.apache.karaf"
  if basename = "processes" then some (.ps logfile, "ps command")
  else if basename = "ip-addr" then some (.ip "addr" logfile, "ip addr command")
  else if basename = "ip-route" then some (.ip "route" logfile, "ip addr command")
  else if basename = "ip-interfaces" then some (.interfaces logfile, "interfaces command")
  else if basename = "journald-3h" then
    some (.journalctl dirname true false logfile, "journalctl command")
  else if basename = "journald-all" then
    some (.journalctl dirname false true logfile, "journalctl command")
  else if basename = "emc4j-bundle" then
    some (.curl "GET" (karaf ++ ":type=bundle,name=root/Bundles") logfile, "curl command")
  else if basename = "emc4j-jdbc" then
    some (.curl "GET" (karaf ++ ":type=jdbc,name=root") logfile, "curl command")
  else if basename = "emc4j-http" then
    some (.curl "GET" (karaf ++ ":type=http,name=root") logfile, "curl command")
  else none

/-- The text of the error, if there is one. -/
def processBasenameExport (basename logfile : String) : Prog Fs HttpDie (Option String) :=
  if logfile = "" then return some ("logfile is empty (basename: " ++ basename ++ ")")
  else do
    -- pre cleanup
    removeFile logfile
    match exportCommand env basename logfile with
    | none => return some ("Unreferenced basename (" ++ basename ++ ")")
    | some export_ =>
        let r ← runCommand env export_.1
        if r ≠ 0 then return some (export_.2 ++ " has failed (basename: " ++ basename ++ ")")
        else return none

/-! ## Archives -/

/-- exported logfiles; whether the export failed -/
def exportMember (data : LogData) : Prog Fs HttpDie Bool :=
  if data.isLogicalFile then return false
  else do
    let err ← processBasenameExport env data.baseName data.filePath
    return err.isSome

/-- A log in the loop over the members of an archive: what was exported so far, and what is
copied. -/
def archiveStep (bit : Nat) (sofar : List String × List String) (data : LogData) :
    Prog Fs HttpDie (List String × List String) :=
  if data.archBitmask &&& bit = 0 then return sofar
  else do
    let failed ← exportMember env data
    let tempLogfiles := if data.isLogicalFile then sofar.1 else sofar.1 ++ [data.filePath]
    if failed then return (tempLogfiles, sofar.2)
    else do
      -- append only if file exist
      let there ← accessible data.filePath
      return (tempLogfiles, if there then sofar.2 ++ [data.cpArg] else sofar.2)

/-- build target directory -/
def makeTargetdir (tempLogfiles : List String) : Prog Fs HttpDie Unit := do
  let r ← runCommand env .mkdir
  if r ≠ 0 then do
    tempLogfiles.forM removeFile
    throw (internalError "mkdir command has failed.")
  else return ()

/-- copy logfiles in target dir; don't die on cp error -/
def copyLogfiles (cp : List String) : Prog Fs HttpDie Unit :=
  if cp = [] then return ()
  else do
    let _ ← runCommand env (.cp cp)
    return ()

/-- archive target dir. -/
def archiveTargetdir (logfile : String) (tempLogfiles : List String) : Prog Fs HttpDie Unit := do
  let r ← runCommand env (.tar logfile)
  -- cleanup
  let _ ← runCommand env .rmdir
  tempLogfiles.forM removeFile
  if r ≠ 0 then do
    removeFile logfile
    throw (internalError "tar command has failed.")
  else return ()

/-- built a tar archive owning a set of logfiles -/
def buildArchive (base : LogData) : Prog Fs HttpDie Unit := do
  -- pre cleanup
  removeFile base.filePath
  let _ ← runCommand env .rmdir
  if base.archiveBit = 0 then
    throw (internalError
      ("Inconsistent logfiles membership bit for '" ++ base.baseName ++ "' archive."))
  else do
    let (tempLogfiles, cp) ← logsData.foldlM (archiveStep env base.archiveBit) ([], [])
    makeTargetdir env tempLogfiles
    copyLogfiles env cp
    archiveTargetdir env base.filePath tempLogfiles

/-- The file of the log is made when it is not a log file; it is deleted afterwards then. -/
def produceLogfile (base : LogData) : Prog Fs HttpDie Bool :=
  if base.isArchive then do
    buildArchive env base
    return true
  else if base.isLogicalFile then return false
  else do
    let err ← processBasenameExport env base.baseName base.filePath
    match err with
    | some err => do
        removeFile base.filePath
        throw (internalError err)
    | none => return true

/-! ## Encryption -/

def passphrase : String :=
  let conf :=
    match env.conf with
    | some (some _, passphrase) => passphrase.getD ""
    | _ => ""
  if conf = "" then "7z4u!" else conf

def removeIf (deleteLogfile : Bool) (logfile : String) : Prog Fs HttpDie Unit :=
  if deleteLogfile then removeFile logfile else return ()

/-- The file that is served, whether it is deleted afterwards, and whether it is encrypted. -/
def encryptLogfile (base : LogData) (deleteLogfile : Bool) :
    Prog Fs HttpDie (String × Bool × Bool) :=
  if base.doEncryption then do
    let crypted := base.filePath ++ ".7z"
    let r ← runCommand env (.sevenZip (passphrase env) crypted base.filePath)
    if r ≠ 0 then do
      removeIf deleteLogfile base.filePath
      removeFile crypted
      throw (internalError
        ("7z/crypt command has failed for basename '" ++ base.baseName ++ "'."))
    else do
      removeIf deleteLogfile base.filePath
      return (crypted, true, true)
  else return (base.filePath, deleteLogfile, false)

/-! ## The reply -/

/-- The exception of a file that can't be opened, as it is answered. -/
def notOpened (base : LogData) : HttpDie :=
  if base.isLogicalFile then ⟨"not-found", [base.baseName]⟩
  else internalError "Exception caught. Please check logs for more details."

def readLogfile (base : LogData) (logfile : String) (deleteLogfile : Bool) :
    Prog Fs HttpDie (List UInt8) := do
  let content ← look fun fs ↦
    .ok (if env.readable logfile then fs.files logfile else none)
  match content with
  | none => do
      removeIf deleteLogfile logfile
      throw (notOpened base)
  | some fileContent => do
      -- cleanup logfile
      removeIf deleteLogfile logfile
      return fileContent

/-- build baseName prefixed unamed & timestamped filename; there are no colons in it from the
time. -/
def buildContentFilename (baseName : String) : String :=
  let filename := match env.nodename with
    | none => baseName
    | some nodename => baseName ++ "_" ++ nodename
  match env.timestamp with
  | none => filename
  | some buf =>
      filename ++ "_" ++ String.ofList (buf.toList.map fun c ↦ if c = ':' then '-' else c)

def disposition (how filename : String) : String := how ++ "; filename=\"" ++ filename ++ "\""

def getlogReply (base : LogData) (ext : String) (encrypted : Bool) (fileContent : List UInt8) :
    GetlogReply :=
  let how := if ext = "" then "inline" else "attachment"
  let filename := buildContentFilename env base.baseName ++
    if base.isArchive then ".tar" else ".txt"
  if ext = "" ∨ ext = ".txt" then
    { contentType := "text/plain;charset=UTF-8"
      contentDisposition :=
        some (disposition how (if encrypted then filename ++ ".7z" else filename))
      body := fileContent }
  else
    let ext := if encrypted then ".7z" else ".gz"
    let body :=
      if encrypted then fileContent else Compressor.reply env.deflator env.raw fileContent
    { contentType := env.mimetype (base.baseName ++ ext)
      contentLength := some body.length
      contentDisposition := some (disposition how (filename ++ ext))
      body := body }

/-- The names and the extensions that are supported. -/
def getlogNames : String :=
  "\x7b \"getlog-supports\": \x7b \"logname_base\": [" ++
    ", ".intercalate (logsData.map fun data ↦ "\"" ++ data.baseName ++ "\"") ++
    "], \"logname_ext\": [ \"\", \".txt\", \".gz\" ] \x7d\x7d"

def getlogLog (base : LogData) (ext : String) : Prog Fs HttpDie GetlogReply := do
  let deleteLogfile ← produceLogfile env base
  let (logfile, deleteLogfile, encrypted) ← encryptLogfile env base deleteLogfile
  let fileContent ← readLogfile env base logfile deleteLogfile
  return getlogReply env base ext encrypted fileContent

/-- What the request is refused for, or the log that it asks for. -/
def checkGetlog (args : GetlogArgs) : Except HttpDie LogData := do
  let name := "'" ++ args.lognameBase ++ args.lognameExt ++ "'"
  require (args.lognameExt = "" ∨ args.lognameExt = ".txt" ∨ args.lognameExt = ".gz")
    ⟨"request-param-bad", ["extension", name, "'', '.gz' or '.txt' extension"]⟩
  orThrow (logsData.find? fun data ↦ args.lognameBase = data.baseName)
    ⟨"request-param-bad",
      ["logname", name, "'messages' optionally with '.gz' or '.txt' extension"]⟩

def getlog (args : GetlogArgs) : Prog Fs HttpDie GetlogAnswer :=
  if args.listLognames = "yes" then return .names getlogNames
  else do
    let base ← look fun _ ↦ checkGetlog args
    let reply ← getlogLog env base args.lognameExt
    return .log reply

end

end FtyRest.Ecpp
