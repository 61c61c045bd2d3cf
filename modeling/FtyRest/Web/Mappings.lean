import FtyRest.Lib.Regex
import Mathlib.Data.List.TakeWhile

/-!
# The mappings

The mappings of the web server in the order of the files under `resources`: which component is
called for which URL and method.
-/

namespace FtyRest.Web

open Regex

/-- A component that is looked into here, or another one by its name. -/
inductive Target where
  | serverStatus
  | sslRedirect
  | securityHeaders
  | securityRemoveheaders
  | json
  | findAccessToken
  | authVerify
  | licensePost
  | license
  | notFound
  | page (name : String)
deriving DecidableEq, Repr

/-- A pattern that is not there matches everything. -/
structure Entry where
  target : Target
  url : Option String := none
  method : Option String := none
  pathinfo : Option String := none
  args : List (String × String) := []
deriving DecidableEq, Repr

/-- `cxxtools::Regex::match` -/
def regexMatch (pattern text : String) : Bool :=
  (Pattern.ofText pattern.toList).any (·.search text.toList)

def Entry.covers (e : Entry) (url method : String) : Bool :=
  e.url.all (regexMatch · url) && e.method.all (regexMatch · method)

/-! ## The files -/

/-- `10_common_statics.xml` -/
def commonStatics : List Entry :=
  [ { target := .serverStatus },
    { target := .sslRedirect },
    { target := .securityHeaders,
      args := [("Cache-Control", "no-store"), ("Pragma", "no-cache"), ("X-XSS-Protection", "1"),
        ("X-Content-Type-Options", "nosniff")] },
    { target := .securityRemoveheaders, url := some "\\.(ttf|otf|eot|woff)$",
      args := [("Cache-Control", ""), ("Pragma", "")] },
    { target := .page "static@tntnet", url := some "^/((assets|[a-z]|[A-Z]|[0-9]).*)",
      pathinfo := some "./$1" },
    { target := .page "static@tntnet", url := some "^/$", pathinfo := some "./index.html" },
    { target := .page "static@tntnet", url := some "^/favicon.ico",
      pathinfo := some "./favicon.ico" },
    { target := .page "static@tntnet", url := some "^/legal/Eaton-EULA",
      pathinfo := some "/usr/share/common-licenses/Eaton-EULA" },
    { target := .page "static@tntnet", url := some "^/legal/Vendor-EULA",
      pathinfo := some "/usr/share/common-licenses/Vendor-EULA" },
    { target := .page "static@tntnet", url := some "^/legal/(.*)$",
      pathinfo := some "/usr/share/doc/$1" },
    { target := .json },
    { target := .findAccessToken } ]

/-- `20_common_basics.xml` -/
def commonBasics : List Entry :=
  [ { target := .page "auth@libfty_rest", url := some "^/api/v1/oauth2/token$",
      method := some "POST" },
    { target := .authVerify } ]

/-- `50_main_api_start.xml` -/
def mainApiStart : List Entry :=
  [ { target := .page "sysinfo@libfty_rest", url := some "^/api/v1/admin/sysinfo(/?|\\?.+=.+)$" },
    { target := .page "auth@libfty_rest", url := some "^/api/v1/oauth2/revoke$",
      method := some "POST" },
    { target := .page "alert_list@libfty_rest",
      url := some "^/api/v1/alerts/activelist(\\?[^/]+)?$", method := some "GET" },
    { target := .page "alert_assets_states_counter@libfty_rest",
      url := some "^/api/v1/alerts/assets-states-counter(\\?[^/]+)?$", method := some "GET" },
    { target := .page "admin_sse@libfty_rest", url := some "^/api/v1/sse.*$",
      method := some "GET" },
    { target := .page "alert_ack@libfty_rest", url := some "^/api/v1/alerts/ack/([^/]+)/([^/]+)/?$",
      method := some "PUT", args := [("rule_name", "$1"), ("element_name", "$2")] },
    { target := .page "alert_rules_list@libfty_rest", url := some "^/api/v1/alerts/rules([^/]*)$",
      method := some "GET" },
    { target := .page "alert_rules_detail@libfty_rest",
      url := some "^/api/v1/alerts/rules/([^/]*)$", method := some "GET",
      args := [("name", "$1")] },
    { target := .page "alert_rules@libfty_rest",
      url := some "^/api/v1/alerts/rules(/|/([^/]+))\x7b0,1\x7d$", method := some "(POST|PUT)",
      args := [("name", "$2")] },
    { target := .page "alert_templates@libfty_rest",
      url := some "^/api/v1/alerts/templates([^/]*)$", method := some "GET" },
    { target := .page "systemctl@libfty_rest",
      url := some "^/api/v1/admin/systemctl/([^/]+)(/(.*))?$", method := some "GET",
      args := [("operation", "$1"), ("service_name", "$3")] },
    { target := .page "systemctl@libfty_rest", url := some "^/api/v1/admin/systemctl/(.+?)$",
      method := some "POST", args := [("operation", "$1")] },
    { target := .page "info@libfty_rest", url := some "^/api/v1/admin/info$",
      method := some "GET" },
    { target := .page "augtool@libfty_rest", url := some "^/api/v1/admin/(netcfg|time).*" },
    { target := .page "netcfg@libfty_rest", url := some "^/api/v1/admin/netcfgs$",
      method := some "GET" },
    { target := .page "netcfg@libfty_rest", url := some "^/api/v1/admin/netcfg/(.*)$",
      method := some "(GET|PUT)", args := [("iface", "$1")] },
    { target := .page "admin_ifaces@libfty_rest", url := some "^/api/v1/admin/ifaces$" },
    { target := .page "admin_iface@libfty_rest", url := some "^/api/v1/admin/iface/(.*)$",
      method := some "GET", args := [("iface", "$1")] },
    { target := .page "http_proxy@libfty_rest", url := some "^/api/v1/admin/http_proxy$",
      method := some "(GET|PUT)" },
    { target := .page "time@libfty_rest", url := some "^/api/v1/admin/time.*$",
      method := some "(GET|POST)" },
    { target := .page "admin_passwd@libfty_rest", url := some "^/api/v1/admin/passwd(/)?",
      method := some "POST" } ]

/-- `51_asset_api_fty-rest.xml` -/
def assetApiFtyRest : List Entry :=
  [ { target := .page "assets_in_counter@libfty_rest", url := some "^/api/v1/asset-counters",
      method := some "GET" },
    { target := .page "asset_counter_GET@libfty_rest", url := some "^/api/v1/asset-active-counters",
      method := some "GET" } ]

/-- `60_main_api_until_eula.xml` -/
def mainApiUntilEula : List Entry :=
  [ { target := .page "my_profile@libfty_rest", url := some "^/api/v1/admin/myuser$",
      method := some "GET" },
    { target := .page "my_profile@libfty_rest", url := some "^/api/v1/admin/myuser$",
      method := some "PUT" },
    { target := .page "license_text@libfty_rest", url := some "^/api/v1/admin/license$",
      method := some "GET" },
    { target := .licensePost, url := some "^/api/v1/admin/license$", method := some "POST" },
    { target := .page "license_status@libfty_rest", url := some "^/api/v1/admin/license/status$",
      method := some "GET" },
    { target := .license, url := some "^/api/v1/.*" } ]

/-- `89_main_api_end.xml` -/
def mainApiEnd : List Entry :=
  [ { target := .page "getlog_GET@libfty_rest",
      url := some "^/api/v1/admin/getlog/(.*)\\.(gz|txt)$", method := some "GET",
      args := [("logname_base", "$1"), ("logname_ext", ".$2")] },
    { target := .page "swagger@libfty_rest", url := some "^/etn/v1/swagger/automation.yaml$",
      method := some "GET" },
    { target := .page "getlog_GET@libfty_rest", url := some "^/api/v1/admin/getlog$",
      method := some "GET", args := [("list_lognames", "yes")] },
    { target := .page "getlog_GET@libfty_rest", url := some "^/api/v1/admin/getlog/(.*)$",
      method := some "GET", args := [("logname_base", "$1"), ("logname_ext", "")] },
    { target := .page "topology_power@libfty_rest", url := some "^/api/v1/topology/power.*$",
      method := some "GET" },
    { target := .page "topology_location@libfty_rest", url := some "^/api/v1/topology/location.*$",
      method := some "GET" },
    { target := .page "topology_input_power_chain@libfty_rest",
      url := some "^/api/v1/topology/input_power_chain/(.+)$", method := some "GET",
      args := [("id", "$1")] },
    { target := .page "current@libfty_rest", url := some "^/api/v1/metric/current.*$",
      method := some "GET" },
    { target := .page "rack_total@libfty_rest",
      url := some "^/api/v1/metric/computed/rack_total.*$", method := some "GET" },
    { target := .page "datacenter_indicators@libfty_rest",
      url := some "^/api/v1/metric/computed/datacenter_indicators.*$", method := some "GET" },
    { target := .page "uptime@libfty_rest", url := some "^/api/v1/metric/computed/uptime.*$" },
    { target := .page "average@libfty_rest", url := some "^/api/v1/metric/computed/average/csv.*$",
      method := some "GET", args := [("csv", "yes")] },
    { target := .page "average@libfty_rest", url := some "^/api/v1/metric/computed/average.*$",
      method := some "GET", args := [("csv", "no")] },
    { target := .page "config@libfty_rest", url := some "^/api/v1/admin/config.*$" },
    { target := .page "scan_run@libfty_rest", url := some "^/api/v1/admin/scan.*$",
      method := some "POST" },
    { target := .page "scan_progress@libfty_rest", url := some "^/api/v1/admin/scan.*$",
      method := some "GET" },
    { target := .page "scan_run@libfty_rest", url := some "^/api/v1/admin/scan.*$",
      method := some "DELETE" },
    { target := .page "conf_scan@libfty_rest", url := some "^/api/v1/admin/confscan.*$",
      method := some "POST" },
    { target := .page "conf_scan@libfty_rest", url := some "^/api/v1/admin/confscan.*$",
      method := some "GET" },
    { target := .page "list_gpio@libfty_rest", url := some "^/api/v1/admin/gpio$",
      method := some "GET" },
    { target := .page "add_gpio@libfty_rest", url := some "^/api/v1/admin/gpio/?$",
      method := some "POST" },
    { target := .page "gpo_action@libfty_rest", url := some "^/api/v1/admin/gpo",
      method := some "POST", args := [("sensor", "$1"), ("action", "$2")] },
    { target := .page "hw_capability@libfty_rest", url := some "^/api/v1/admin/hw_capability/(.*)$",
      method := some "GET", args := [("id", "$1")] },
    { target := .page "email_test@libfty_rest", url := some "^/api/v1/admin/email[/_]test.*$",
      method := some "POST" },
    { target := .page "email_feedback@libfty_rest", url := some "^/api/v1/admin/email/feedback.*$",
      method := some "POST" },
    { target := .page "email_vote@libfty_rest", url := some "^/api/v1/admin/email/vote.*$",
      method := some "POST" } ]

/-- `99_end.xml` -/
def apiEnd : List Entry :=
  [ { target := .notFound, url := some "^/api/v1/*.*$" } ]

def authVerifyEntry : Entry := { target := .authVerify }

def licenseEntry : Entry := { target := .license, url := some "^/api/v1/.*" }

def notFoundEntry : Entry := { target := .notFound, url := some "^/api/v1/*.*$" }

def entries : List Entry :=
  commonStatics ++ commonBasics ++ mainApiStart ++ assetApiFtyRest ++ mainApiUntilEula ++
    mainApiEnd ++ apiEnd

/-- What stands behind the first mapping of a component. -/
def behind (t : Target) : List Entry := (entries.dropWhile (·.target != t)).tail

def inFront (t : Target) : List Entry := entries.takeWhile (·.target != t)

theorem entries_eq {t : Target} {e : Entry} (h : entries.find? (·.target == t) = some e) :
    entries = inFront t ++ e :: behind t := by
  have hhead : (entries.dropWhile (·.target != t)).head? = some e :=
    (List.find?_eq_head?_dropWhile_not (fun e : Entry ↦ e.target == t) entries).symm.trans h
  calc entries = inFront t ++ entries.dropWhile (·.target != t) :=
        List.takeWhile_append_dropWhile.symm
    _ = inFront t ++ e :: behind t := by rw [behind, List.cons_head?_tail hhead]

theorem target_inFront {t : Target} : ∀ e ∈ inFront t, e.target ≠ t := by
  intro e he
  have hne := List.mem_takeWhile_imp he
  simpa using hne

/-! ## The order of the components -/

theorem find_sslRedirect :
    entries.find? (·.target == .sslRedirect) = some { target := .sslRedirect } := rfl

theorem find_findAccessToken :
    entries.find? (·.target == .findAccessToken) = some { target := .findAccessToken } := rfl

theorem find_authVerify : entries.find? (·.target == .authVerify) = some authVerifyEntry := rfl

theorem find_license : entries.find? (·.target == .license) = some licenseEntry := rfl

theorem find_notFound : entries.find? (·.target == .notFound) = some notFoundEntry := rfl

theorem behind_findAccessToken_suffix : behind .findAccessToken <:+ behind .sslRedirect :=
  List.drop_suffix 10 (behind .sslRedirect)

theorem behind_authVerify_suffix : behind .authVerify <:+ behind .findAccessToken :=
  List.drop_suffix 2 (behind .findAccessToken)

theorem authVerify_behind_findAccessToken :
    authVerifyEntry :: behind .authVerify <:+ behind .findAccessToken :=
  List.drop_suffix 1 (behind .findAccessToken)

theorem behind_notFound : behind .notFound = [] := rfl

/-- The token is looked for once, and so is the user. -/
theorem target_behind_findAccessToken : ∀ e ∈ behind .findAccessToken,
    e.target ≠ .findAccessToken := by
  decide +kernel

theorem target_behind_authVerify : ∀ e ∈ behind .authVerify, e.target ≠ .authVerify := by
  decide +kernel

theorem target_behind_license : ∀ e ∈ behind .license,
    e.target ≠ .license ∧ e.target ≠ .licensePost := by
  decide +kernel

/-! ## Which URLs are covered -/

/-- `/api/v1` -/
def apiPath : List Char := ['/', 'a', 'p', 'i', '/', 'v', '1']

theorem license_covers_iff {url method : String} :
    licenseEntry.covers url method = true ↔ apiPath ++ ['/'] <+: url.toList := by
  have hpattern : Pattern.ofText "^/api/v1/.*".toList =
      some ⟨true, lits (apiPath ++ ['/']) (.seq (.star any) .empty), false⟩ := by decide +kernel
  have hcovers : licenseEntry.covers url method = regexMatch "^/api/v1/.*" url := Bool.and_true _
  rw [hcovers, regexMatch, hpattern, Option.any_some]
  refine Pattern.search_lits_iff fun rest ↦ ?_
  exact Language.mem_mul.mpr
    ⟨rest, mem_language_star_any rest, [], Language.nil_mem_one, List.append_nil rest⟩

theorem notFound_covers_iff {url method : String} :
    notFoundEntry.covers url method = true ↔ apiPath <+: url.toList := by
  have hpattern : Pattern.ofText "^/api/v1/*.*$".toList =
      some ⟨true, lits apiPath (.seq (.star (lit '/')) (.seq (.star any) .empty)), true⟩ := by
    decide +kernel
  have hcovers : notFoundEntry.covers url method = regexMatch "^/api/v1/*.*$" url :=
    Bool.and_true _
  rw [hcovers, regexMatch, hpattern, Option.any_some]
  refine Pattern.search_lits_iff fun rest ↦ ?_
  have hrest : rest ∈ (Regex.seq (.star any) .empty).language := Language.mem_mul.mpr
    ⟨rest, mem_language_star_any rest, [], Language.nil_mem_one, List.append_nil rest⟩
  exact Language.mem_mul.mpr ⟨[], Language.nil_mem_kstar _, rest, hrest, List.nil_append rest⟩

/-- Behind the license only one page has a URL outside of the API. -/
theorem covered_behind_license {e : Entry} {url method : String} (he : e ∈ behind .license)
    (hswagger : e.target ≠ .page "swagger@libfty_rest") (hnotFound : e.target ≠ .notFound)
    (hcovers : e.covers url method = true) : apiPath ++ ['/'] <+: url.toList := by
  have hall : (behind .license).all (fun e ↦ e.target = .page "swagger@libfty_rest" ||
      e.target = .notFound || e.url.any (fun p ↦ (Pattern.ofText p.toList).any
        (fun p ↦ p.start && (apiPath ++ ['/']).isPrefixOf p.body.literalPrefix))) = true := by
    decide +kernel
  -- every other pattern there begins with these letters, and is anchored
  have hone := List.all_eq_true.mp hall e he
  simp only [hswagger, hnotFound, decide_false, Bool.false_or] at hone
  obtain ⟨text, htext, hany⟩ := (Option.any_eq_true _ _).mp hone
  obtain ⟨p, hp, hprefix⟩ := (Option.any_eq_true _ _).mp hany
  obtain ⟨hstart, hletters⟩ := (Bool.and_eq_true _ _).mp hprefix
  have hurl : regexMatch text url = true := by
    have hboth := ((Bool.and_eq_true _ _).mp hcovers).1
    rwa [htext] at hboth
  rw [regexMatch, hp, Option.any_some] at hurl
  exact (List.isPrefixOf_iff_prefix.mp hletters).trans (Pattern.literalPrefix_of_search hstart hurl)

end FtyRest.Web
