import FtyRest.Ecpp.License
import FtyRest.Lib.Dispatch
import FtyRest.Web.Mappings

/-!
# The way of a request

What the components do that each request passes before a page is called: `server_status.ecpp`,
`ssl_redirect.ecpp`, `security_headers.ecpp`, `security_removeheaders.ecpp`, `json.ecpp`,
`find_access_token.ecpp`, `auth_verify.ecpp` and `license.ecpp`; and `license_POST.ecpp` and
`not_found.ecpp`.  The requests are served side by side.
-/

namespace FtyRest.Web

open Checks Dispatch Ecpp

/-- `BiosProfile` -/
inductive BiosProfile where
  | anonymous
  | dashboard
  | admin
deriving DecidableEq, Repr

/-- What `verify_token` finds of a token; nobody is anonymous with one that is good. -/
structure Found where
  profile : BiosProfile
  uid : Int
  gid : Int
  userName : List Char
deriving DecidableEq, Repr

/-- `UserInfo`; `reauth` is the flag, once it is initialized. -/
structure UserInfo where
  profile : BiosProfile
  uid : Int
  gid : Int
  login : List Char
  reauth : Option Bool
deriving DecidableEq, Repr

/-- What comes in; a parameter that is not there is empty. -/
structure HttpRequest where
  url : String
  method : String
  host : String
  query : String
  peerIp : String
  isSsl : Bool
  accessToken : String
  eatonToken : Option String
  authorization : Option String
deriving DecidableEq, Repr

/-- The reply before a page is called, and what is replied instead of a page. -/
structure Reply where
  headers : List (String × String)
  contentType : Option String
  location : Option String
  died : Option HttpDie
deriving DecidableEq, Repr

/-- A request with its global variables. -/
structure Request where
  http : HttpRequest
  databaseReady : Bool
  gaccessToken : String
  user : UserInfo
  reply : Reply
  /-- a variable of `license.ecpp` and of `license_POST.ecpp` -/
  currentLicenseVersion : List Char
  /-- what `license_POST.ecpp` has written -/
  accepted : List Acceptance
deriving DecidableEq, Repr

/-- What the requests share; the tokens are in `rest`, with all that the pages act on. -/
structure ServerState (τ : Type) where
  rest : τ
  time : Nat
  databaseInitialized : Bool
  /-- `get_current_license_version` -/
  licenseVersion : Option (List Char)
  /-- the file of the accepted license, and whether it can be opened for writing -/
  acceptedLicense : Option (List Char)
  acceptedLicenseOpens : Bool

/-- What the components use. -/
structure Site (τ : Type) where
  /-- `getenv` -/
  noSsl : Option String
  reauthFallbackDefault : Option String
  /-- `get_current_db_initialized_file`, `get_current_license_file` and
  `get_accepted_license_file` -/
  databaseInitializedFile : Option String
  licenseFile : Option String
  acceptedLicenseFile : Option String
  /-- a user before anyone looks at a token -/
  userInfo : UserInfo
  userInfo_profile : userInfo.profile = .anonymous
  checkRegexTextOrDie : (name value regex : String) → Except HttpDie Unit
  verifyToken : τ → String → Found
  checkUserPermissions : List (BiosProfile × String) → UserInfo → HttpRequest →
    Except HttpDie Unit
  /-- A profile that is not listed has no permissions. -/
  listed : ∀ permissions user http, checkUserPermissions permissions user http = .ok () →
    user.profile ∈ permissions.map Prod.fst
  /-- `start-db-services` and what `license_POST.ecpp` waits for behind it -/
  startServices : τ → Bool → τ × Except HttpDie Unit
  /-- the other components: what they leave, and whether they decline -/
  page : Entry → τ → Request → τ × Bool

def Request.die (r : Request) (reason : HttpDie) : Request :=
  { r with reply := { r.reply with died := some reason } }

section

variable {τ : Type} (site : Site τ)

/-! ## The components -/

/-- `server_status.ecpp` -/
def serverStatus : Action (ServerState τ) Request := fun s r ↦
  match site.databaseInitializedFile with
  | none => (s, r.die (internalError "Out of memory!"), .answered)
  | some _ => (s, { r with databaseReady := s.databaseInitialized }, .declined)

/-- The requests that `ssl_redirect.ecpp` lets pass. -/
def Secured (http : HttpRequest) : Prop :=
  http.isSsl = true ∨ site.noSsl = some "1" ∨ http.peerIp = "127.0.0.1"

instance (http : HttpRequest) : Decidable (Secured site http) :=
  inferInstanceAs (Decidable (_ ∨ _ ∨ _))

/-- `ssl_redirect.ecpp` -/
def sslRedirect : Action (ServerState τ) Request := fun s r ↦
  if Secured site r.http then (s, r, .declined)
  else
    let location := "https://" ++ r.http.host ++ r.http.query
    (s, { r with reply := { r.reply with location := some location } }, .answered)

def removeHeader (headers : List (String × String)) (key : String) : List (String × String) :=
  headers.filter (·.1 ≠ key)

def setHeader (headers : List (String × String)) (key value : String) : List (String × String) :=
  (key, value) :: removeHeader headers key

/-- `security_headers.ecpp` -/
def securityHeaders (args : List (String × String)) : Action (ServerState τ) Request := fun s r ↦
  let headers := args.foldl (fun hs arg ↦ setHeader hs (arg.1 ++ ":") arg.2) r.reply.headers
  (s, { r with reply := { r.reply with headers } }, .declined)

/-- `security_removeheaders.ecpp` -/
def securityRemoveheaders (args : List (String × String)) : Action (ServerState τ) Request :=
  fun s r ↦
  let headers := args.foldl (fun hs arg ↦ removeHeader hs (arg.1 ++ ":")) r.reply.headers
  (s, { r with reply := { r.reply with headers } }, .declined)

/-- The URLs whose pages choose the type of the answer themselves. -/
def deferredTypes : List String :=
  ["^/api/v1/admin/license$", "^/api/v1/asset/export.*$", "^/api/v1/admin/licensing$",
    "^/api/v1/admin/getlog/.*$", "^/api/v1/sse.*$"]

/-- `json.ecpp` -/
def json : Action (ServerState τ) Request := fun s r ↦
  if r.http.method = "GET" ∧ deferredTypes.any (regexMatch · r.http.url) then (s, r, .declined)
  else
    let contentType := some "application/json;charset=UTF-8"
    (s, { r with reply := { r.reply with contentType } }, .declined)

/-- The token of the parameter or of the cookie, unless there is a header. -/
def presentedToken (http : HttpRequest) : String :=
  let token :=
    if http.accessToken = "" ∨ http.accessToken = "null" then
      match http.eatonToken with
      | none => http.accessToken
      | some cookie =>
          -- the signs in a cookie have become blanks
          (if cookie = "null" then "" else cookie).map fun c ↦ if c = ' ' then '+' else c
    else http.accessToken
  match http.authorization with
  | none => token
  | some header =>
      if header.toList.take 7 ≠ "Bearer ".toList then ""
      else String.ofList (header.toList.drop 7)

/-- `find_access_token.ecpp` -/
def findAccessToken : Action (ServerState τ) Request := fun s r ↦
  (s, { r with gaccessToken := presentedToken r.http }, .declined)

/-- `!strncasecmp (word, text, strlen (word))` -/
def beginsWith (word text : String) : Bool :=
  (text.toList.take word.length).map Char.toLower = word.toList.map Char.toLower

/-- Whether a session counts as authenticated again. -/
def reauthDefault (envvar : Option String) : Bool :=
  match envvar with
  | none => true
  | some text =>
      if ["TRUE", "YES", "ON", "1"].any (beginsWith · text) then true
      else !(["FALSE", "NO", "OFF", "0"].any (beginsWith · text))

/-- The user of a token that is good. -/
def signIn (found : Found) (user : UserInfo) : UserInfo :=
  { profile := found.profile, uid := found.uid, gid := found.gid, login := found.userName,
    reauth := some (user.reauth.getD (reauthDefault site.reauthFallbackDefault)) }

/-- `auth_verify.ecpp` -/
def authVerify : Action (ServerState τ) Request := fun s r ↦
  if r.user.profile = .anonymous then
    match site.checkRegexTextOrDie "access_token" r.gaccessToken
        "^[-/._~+/a-z0-9]\x7b0,255\x7d=\x7b0,10\x7d$" with
    | .error reason => (s, r.die reason, .answered)
    | .ok () =>
        if r.gaccessToken = "" then (s, r, .declined)
        else
          let found := site.verifyToken s.rest r.gaccessToken
          if found.profile = .anonymous then (s, r.die ⟨"not-authorized", [""]⟩, .answered)
          else (s, { r with user := signIn site found r.user }, .declined)
  else (s, r, .declined)

/-- The beginning of `license.ecpp` and of `license_POST.ecpp`. -/
def currentLicenseVersion (s : ServerState τ) : Except HttpDie (List Char) := do
  require (site.licenseFile.isSome = true)
    (internalError "Cannot get the path to the text of the current license")
  let version ← orThrow s.licenseVersion
    (internalError "Cannot get version of the text of the current license")
  require (site.acceptedLicenseFile.isSome = true)
    (internalError "Cannot get the path to the actual status of the accepted license")
  return version

/-- `license.ecpp` -/
def license : List (Action (ServerState τ) Request) :=
  [fun s r ↦
      match currentLicenseVersion site s with
      | .error reason => (s, r.die reason, .answered)
      | .ok version => (s, { r with currentLicenseVersion := version }, .onward),
    fun s r ↦
      match checkLicense r.currentLicenseVersion s.acceptedLicense with
      | .error reason => (s, r.die reason, .answered)
      | .ok () => (s, r, .declined)]

/-- `PERMISSIONS` of `license_POST.ecpp` -/
def licensePostPermissions : List (BiosProfile × String) := [(.admin, "C")]

/-- `license_POST.ecpp`; the file is emptied when it is opened, and written when it is closed. -/
def licensePost : List (Action (ServerState τ) Request) :=
  [fun s r ↦
      match site.checkUserPermissions licensePostPermissions r.user r.http,
        currentLicenseVersion site s with
      | .error reason, _ => (s, r.die reason, .answered)
      | .ok (), .error reason => (s, r.die reason, .answered)
      | .ok (), .ok version => (s, { r with currentLicenseVersion := version }, .onward),
    fun s r ↦
      if s.acceptedLicenseOpens then ({ s with acceptedLicense := some [] }, r, .onward)
      else
        (s, r.die (internalError "Cannot open file with actual information about accepted license"),
          .answered),
    fun s r ↦
      let a : Acceptance := ⟨r.currentLicenseVersion, s.time, r.user.login⟩
      ({ s with acceptedLicense := some (overwrite a.text (s.acceptedLicense.getD [])) },
        { r with accepted := a :: r.accepted }, .onward),
    fun s r ↦
      match site.startServices s.rest r.databaseReady with
      | (rest, .error reason) => ({ s with rest }, r.die reason, .answered)
      | (rest, .ok ()) => ({ s with rest }, { r with databaseReady := true }, .answered)]

/-- `not_found.ecpp` -/
def notFound : Action (ServerState τ) Request := fun s r ↦
  (s, r.die ⟨"not-found", [r.http.url ++ " " ++ r.http.method]⟩, .answered)

/-- Another component; what it replies is its own. -/
def otherPage (e : Entry) : Action (ServerState τ) Request := fun s r ↦
  let (rest, declines) := site.page e s.rest r
  ({ s with rest }, r, if declines then .declined else .answered)

def actions (e : Entry) : List (Action (ServerState τ) Request) :=
  match e.target with
  | .serverStatus => [serverStatus site]
  | .sslRedirect => [sslRedirect site]
  | .securityHeaders => [securityHeaders e.args]
  | .securityRemoveheaders => [securityRemoveheaders e.args]
  | .json => [json]
  | .findAccessToken => [findAccessToken]
  | .authVerify => [authVerify site]
  | .licensePost => licensePost site
  | .license => license site
  | .notFound => [notFound]
  | .page _ => [otherPage site e]

def mapping (e : Entry) : Mapping (ServerState τ) Request Entry :=
  ⟨e, fun r ↦ e.covers r.http.url r.http.method, actions site e⟩

/-- A request that comes in. -/
def arrived (http : HttpRequest) : Request where
  http
  databaseReady := false
  gaccessToken := ""
  user := site.userInfo
  reply := ⟨[], none, none, none⟩
  currentLicenseVersion := []
  accepted := []

/-- What else changes what the requests share. -/
inductive Change (τ : Type) where
  | rest (rest : τ)
  | time (time : Nat)
  | databaseInitialized (initialized : Bool)
  | licenseVersion (version : Option (List Char))
  | acceptedLicenseOpens (opens : Bool)

def change : Change τ → ServerState τ → ServerState τ
  | .rest rest, s => { s with rest }
  | .time time, s => { s with time }
  | .databaseInitialized initialized, s => { s with databaseInitialized := initialized }
  | .licenseVersion version, s => { s with licenseVersion := version }
  | .acceptedLicenseOpens opens, s => { s with acceptedLicenseOpens := opens }

/-- The server after the requests and the steps. -/
def serve (s : ServerState τ) (events : List (Event HttpRequest (Change τ))) :
    Server (ServerState τ) Request Entry :=
  Server.run (entries.map (mapping site)) (arrived site) change s events

end

end FtyRest.Web
