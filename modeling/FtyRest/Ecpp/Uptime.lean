import FtyRest.Ecpp.Json
import FtyRest.Lib.Checks
import FtyRest.Lib.JsonCommas

/-!
# Uptime

The answer of `uptime.ecpp`: the outages of datacenters, as they are told one after the other.
-/

namespace FtyRest.Ecpp

/-- The parts of a reply that are read; `none` is a part that is missing. -/
structure UptimeReply where
  total : Option String
  offline : Option String
deriving DecidableEq, Repr

/-- What a request asks its surroundings. -/
structure UptimeEnv where
  /-- `cxxtools::split` at commas -/
  split : String → List String
  /-- The status of `get_items1`. -/
  getItems1 : Nat
  /-- `name_to_extname`: its result and the name. -/
  nameToExtname : String → Int × String
  mlmClientNew : Bool
  /-- The reply to the request of a number; `none` when it could not be received. -/
  recvx : Nat → Option UptimeReply

/-- What is told of a datacenter. -/
structure Outage where
  id : String
  name : String
  offline : String
  total : String
deriving DecidableEq, Repr

section

variable (env : UptimeEnv)

def checkName (item : String) : Except HttpDie (String × String) :=
  let (rv, extName) := env.nameToExtname item
  if rv = -1 then .error ⟨"not-found", [item]⟩
  else if rv = -2 then .error (internalError "Database failure")
  else .ok (item, extName)

/-- The names and the external names of the datacenters. -/
def checkUptime (arg1 : String) : Except HttpDie (List (String × String)) :=
  if arg1 = "" then .error ⟨"request-param-required", ["arg1"]⟩
  else if env.getItems1 = 0 then
    .error (internalError "Error while retrieving information about datacenters.")
  else (env.split arg1).mapM (checkName env)

/-- A reply that misses a part, or tells an error, is skipped. -/
def readReply (dc : String × String) (reply : UptimeReply) : Option Outage :=
  match reply.total, reply.offline with
  | some total, some offline =>
      if total = "ERROR" then none else some ⟨dc.1, dc.2, offline, total⟩
  | _, _ => none

def printOutage (outage : Outage) : String :=
  "\t\t\x7b\n" ++
    "\t\t\t\"id\": \"" ++ outage.id ++ "\",\n" ++
    "\t\t\t\"name\": \"" ++ outage.name ++ "\",\n" ++
    "\t\t\t\"outage\" : " ++ outage.offline ++ ",\n" ++
    "\t\t\t\"total\" : " ++ outage.total ++ "\n" ++
    "\t\t\x7d"

def outageStep (count : Nat) (json : String) (dc : (String × String) × Nat) :
    Except HttpDie String :=
  match env.recvx dc.2 with
  | none => .error (internalError "")
  | some reply =>
      match readReply dc.1 reply with
      | none => .ok json
      | some outage => .ok (json ++ printOutage outage ++ if dc.2 < count - 1 then ",\n" else "\n")

def outages (dcs : List (String × String)) : Except HttpDie String := do
  let json ← dcs.zipIdx.foldlM (outageStep env dcs.length) "\x7b\n\t\"outage\": [\n"
  return json ++ "\t]\n\x7d\n"

def uptime (arg1 : String) : Except HttpDie String := do
  let dcs ← checkUptime env arg1
  if !env.mlmClientNew then throw (internalError "")
  outages env dcs

/-! ## The document -/

/-- What the replies tell, from a number on. -/
def reportsFrom (k : Nat) (dcs : List (String × String)) : List (Option Outage) :=
  (dcs.zipIdx k).map fun dc ↦ (env.recvx dc.2).bind (readReply dc.1)

def reports (dcs : List (String × String)) : List (Option Outage) := reportsFrom env 0 dcs

end

def joinOutages : List Outage → String
  | [] => ""
  | [outage] => printOutage outage ++ "\n"
  | outage :: rest => printOutage outage ++ ",\n" ++ joinOutages rest

/-- The document that lists these outages. -/
def outageDocument (outages : List Outage) : String :=
  "\x7b\n\t\"outage\": [\n" ++ joinOutages outages ++ "\t]\n\x7d\n"

/-- A well-formed document that lists the datacenters that were told of, in their order. -/
def ListsOutages (env : UptimeEnv) (dcs : List (String × String)) : Prop :=
  ∃ text, outages env dcs = .ok text ∧ (∃ value, text = value ++ "\n" ∧ JsonText.Value value) ∧
    text = outageDocument ((reports env dcs).filterMap id)

/-- A name that needs no escaping. -/
def PlainName (name : String) : Prop := ∀ c ∈ name.toList, JsonText.PlainChar c

instance (name : String) : Decidable (PlainName name) :=
  List.decidableBAll (fun c ↦ JsonText.PlainChar c) name.toList

/-! ## The loop -/

/-- The entries with the separators that the loop puts behind them. -/
def loopText : List (Option Outage) → String
  | [] => ""
  | none :: rest => loopText rest
  | [some outage] => printOutage outage ++ "\n"
  | some outage :: rest => printOutage outage ++ ",\n" ++ loopText rest

section

variable {env : UptimeEnv}

theorem loopText_some {outage : Outage} {rest : List (Option Outage)} (h : rest ≠ []) :
    loopText (some outage :: rest) = printOutage outage ++ ",\n" ++ loopText rest := by
  cases rest with
  | nil => exact absurd rfl h
  | cons next rest => rfl

theorem joinOutages_cons {outage : Outage} {rest : List Outage} (h : rest ≠ []) :
    joinOutages (outage :: rest) = printOutage outage ++ ",\n" ++ joinOutages rest := by
  cases rest with
  | nil => exact absurd rfl h
  | cons next rest => rfl

theorem foldlM_outageStep {n k : Nat} {dcs : List (String × String)} (hk : k + dcs.length = n)
    (hrecv : ∀ i < n, (env.recvx i).isSome) (json : String) :
    (dcs.zipIdx k).foldlM (outageStep env n) json =
      .ok (json ++ loopText (reportsFrom env k dcs)) := by
  induction dcs generalizing k json with
  | nil =>
    show Except.ok json = Except.ok (json ++ "")
    rw [String.append_empty]
  | cons dc dcs ih =>
    rw [List.length_cons] at hk
    obtain ⟨reply, hreply⟩ := Option.isSome_iff_exists.mp (hrecv k (by omega))
    have hreports : reportsFrom env k (dc :: dcs) =
        readReply dc reply :: reportsFrom env (k + 1) dcs := by
      unfold reportsFrom
      rw [List.zipIdx_cons, List.map_cons, hreply]
      rfl
    rw [List.zipIdx_cons, List.foldlM_cons, hreports]
    unfold outageStep
    dsimp only
    rw [hreply]
    dsimp only
    cases readReply dc reply with
    | none => exact ih (by omega) json
    | some outage =>
      simp only [Checks.ok_bind]
      have hrest := ih (k := k + 1) (by omega)
        (json ++ printOutage outage ++ if k < n - 1 then ",\n" else "\n")
      unfold outageStep at hrest
      rw [hrest]
      by_cases hdcs : dcs = []
      · -- only the last datacenter has no comma behind it
        subst hdcs
        rw [List.length_nil] at hk
        rw [if_neg (by omega)]
        show Except.ok (json ++ printOutage outage ++ "\n" ++ "") = _
        rw [String.append_empty, String.append_assoc]
        rfl
      · have hpos := List.length_pos_iff.mpr hdcs
        have hne : reportsFrom env (k + 1) dcs ≠ [] := by
          unfold reportsFrom
          rw [ne_eq, List.map_eq_nil_iff, List.zipIdx_eq_nil_iff]
          exact hdcs
        rw [if_pos (by omega), loopText_some hne]
        simp only [String.append_assoc]

theorem outages_eq {dcs : List (String × String)}
    (hrecv : ∀ i < dcs.length, (env.recvx i).isSome) :
    outages env dcs =
      .ok ("\x7b\n\t\"outage\": [\n" ++ loopText (reports env dcs) ++ "\t]\n\x7d\n") := by
  unfold outages
  rw [foldlM_outageStep (Nat.zero_add _) hrecv]
  rfl

end

/-! ## One entry -/

section

open JsonText

variable {outage : Outage}

/-- The texts of an outage that may be printed as they are. -/
structure Outage.Printable (outage : Outage) : Prop where
  id : PlainName outage.id
  name : PlainName outage.name
  offline : Number outage.offline
  total : Number outage.total

theorem members_quoted {text : String} (before key : String) (hbefore : Blank before)
    (hkey : StringBody key) (htext : PlainName text) :
    Members (before ++ "\"" ++ key ++ "\"" ++ "" ++ ":" ++ " " ++ ("\"" ++ text ++ "\"") ++ "") :=
  .member hbefore hkey (by decide) (by decide) (.string (stringBody_plain htext)) (by decide)

theorem items_printOutage (h : outage.Printable) : Items (printOutage outage) := by
  have hid := members_quoted "\n\t\t\t" "id" (by decide) (by decide) h.id
  have hname := members_quoted "\n\t\t\t" "name" (by decide) (by decide) h.name
  have hoffline := Members.member (show Blank "\n\t\t\t" by decide) (show StringBody "outage" by decide)
    (show Blank " " by decide) (show Blank " " by decide) (.number h.offline)
    (show Blank "" by decide)
  have htotal := Members.member (show Blank "\n\t\t\t" by decide) (show StringBody "total" by decide)
    (show Blank " " by decide) (show Blank " " by decide) (.number h.total)
    (show Blank "\n\t\t" by decide)
  have hitem := Items.item (show Blank "\t\t" by decide)
    (.object (hid.append (hname.append (hoffline.append htotal)))) (show Blank "" by decide)
  -- the literals of the source, piece by piece
  have hopen : "\t\t\x7b\n" = "\t\t" ++ ("\x7b" ++ "\n") := rfl
  have hidKey : "\t\t\t\"id\": \"" =
    "\t\t\t" ++ ("\"" ++ ("id" ++ ("\"" ++ (":" ++ (" " ++ "\""))))) := rfl
  have hnameKey : "\t\t\t\"name\": \"" =
    "\t\t\t" ++ ("\"" ++ ("name" ++ ("\"" ++ (":" ++ (" " ++ "\""))))) := rfl
  have hofflineKey : "\t\t\t\"outage\" : " =
    "\t\t\t" ++ ("\"" ++ ("outage" ++ ("\"" ++ (" " ++ (":" ++ " "))))) := rfl
  have htotalKey : "\t\t\t\"total\" : " =
    "\t\t\t" ++ ("\"" ++ ("total" ++ ("\"" ++ (" " ++ (":" ++ " "))))) := rfl
  have hquote : "\",\n" = "\"" ++ ("," ++ "\n") := rfl
  have hcomma : ",\n" = "," ++ "\n" := rfl
  have hclose : "\t\t\x7d" = "\t\t" ++ "\x7d" := rfl
  have hindent : "\n\t\t\t" = "\n" ++ "\t\t\t" := rfl
  have hlast : "\n\t\t" = "\n" ++ "\t\t" := rfl
  unfold printOutage
  rw [hindent, hlast] at hitem
  rw [hopen, hidKey, hnameKey, hofflineKey, htotalKey, hquote, hcomma, hclose]
  simpa only [-String.reduceAppend, String.append_assoc, String.append_empty, String.empty_append]
    using hitem

/-! ## All entries -/

theorem items_joinOutages {outages : List Outage} (hne : outages ≠ [])
    (h : ∀ outage ∈ outages, outage.Printable) : Items (joinOutages outages) := by
  induction outages with
  | nil => exact absurd rfl hne
  | cons outage rest ih =>
    rw [List.forall_mem_cons] at h
    have hitem := items_printOutage h.1
    by_cases hrest : rest = []
    · rw [hrest]
      exact hitem.withBlank (by decide)
    · have hitems := (ih hrest h.2).afterBlank (show Blank "\n" by decide)
      have heq : joinOutages (outage :: rest) =
          printOutage outage ++ "," ++ ("\n" ++ joinOutages rest) := by
        have hcomma : ",\n" = "," ++ "\n" := rfl
        rw [joinOutages_cons hrest, hcomma]
        simp only [-String.reduceAppend, String.append_assoc]
      rw [heq]
      exact hitem.append hitems

/-- The document is well-formed, whatever it lists. -/
theorem value_outageDocument {outages : List Outage} (h : ∀ outage ∈ outages, outage.Printable) :
    ∃ value, outageDocument outages = value ++ "\n" ∧ Value value := by
  have harray : Value ("[" ++ ("\n" ++ joinOutages outages ++ "\t") ++ "]") := by
    by_cases hne : outages = []
    · rw [hne]
      exact .noItems (by decide)
    · have hitems := (items_joinOutages hne h).afterBlank (show Blank "\n" by decide)
      exact .array (hitems.withBlank (by decide))
  have hmember := Members.member (show Blank "\n\t" by decide) (show StringBody "outage" by decide)
    (show Blank "" by decide) (show Blank " " by decide) harray (show Blank "\n" by decide)
  refine ⟨_, ?_, .object hmember⟩
  have hopen : "\x7b\n\t\"outage\": [\n" = "\x7b" ++ ("\n\t" ++ ("\"" ++ ("outage" ++
    ("\"" ++ (":" ++ (" " ++ ("[" ++ "\n"))))))) := rfl
  have hclose : "\t]\n\x7d\n" = "\t" ++ ("]" ++ ("\n" ++ ("\x7d" ++ "\n"))) := rfl
  unfold outageDocument
  rw [hopen, hclose]
  simp only [-String.reduceAppend, String.append_assoc, String.empty_append]

/-- The last datacenter was told of, or none was. -/
def EndsWithData (reports : List (Option Outage)) : Prop :=
  (∀ report ∈ reports, report = none) ∨ ∃ outage, reports.getLast? = some (some outage)

theorem loopText_ends {reports : List (Option Outage)} (h : EndsWithData reports) :
    loopText reports = joinOutages (reports.filterMap id) := by
  induction reports with
  | nil => rfl
  | cons report rest ih =>
    cases report with
    | none =>
      apply ih
      rcases h with hnone | ⟨outage, hlast⟩
      · exact Or.inl fun report hreport ↦ hnone report (List.mem_cons_of_mem _ hreport)
      · cases rest with
        | nil => cases hlast
        | cons next rest => exact Or.inr ⟨outage, hlast⟩
    | some outage =>
      -- the comma is printed behind every entry but the last of the loop, so data has to follow
      by_cases hrest : rest = []
      · rw [hrest]
        rfl
      · have hends : ∃ outage, rest.getLast? = some (some outage) := by
          rcases h with hnone | ⟨other, hlast⟩
          · cases hnone _ List.mem_cons_self
          · rw [List.getLast?_cons_of_ne_nil hrest] at hlast
            exact ⟨other, hlast⟩
        obtain ⟨other, hother⟩ := hends
        have hne : rest.filterMap id ≠ [] := by
          apply List.ne_nil_of_mem (a := other)
          exact List.mem_filterMap.mpr ⟨_, List.mem_of_getLast? hother, rfl⟩
        rw [loopText_some hrest, ih (Or.inr ⟨other, hother⟩),
          List.filterMap_cons_some (show id (some outage) = some outage from rfl),
          joinOutages_cons hne]

/-- Otherwise the text of the loop ends with a comma. -/
theorem scan_loopText {reports : List (Option Outage)}
    (hprintable : ∀ outage, some outage ∈ reports → outage.Printable)
    (hlast : reports.getLast? = some none) (hsome : ∃ outage, some outage ∈ reports)
    (comma : Bool) :
    scan (.outside comma) (loopText reports).toList = some (.outside true) := by
  induction reports generalizing comma with
  | nil => cases hlast
  | cons report rest ih =>
    have hrestPrintable : ∀ outage, some outage ∈ rest → outage.Printable := by
      intro outage houtage
      exact hprintable outage (List.mem_cons_of_mem _ houtage)
    have hne : rest ≠ [] := by
      rintro rfl
      obtain ⟨outage, houtage⟩ := hsome
      rw [← List.mem_singleton.mp houtage] at hlast
      cases hlast
    rw [List.getLast?_cons_of_ne_nil hne] at hlast
    cases report with
    | none =>
      have hsomeRest : ∃ outage, some outage ∈ rest := by
        obtain ⟨outage, houtage⟩ := hsome
        exact ⟨outage, (List.mem_cons.mp houtage).resolve_left (by simp)⟩
      exact ih hrestPrintable hlast hsomeRest comma
    | some outage =>
      have hentry := (items_printOutage (hprintable outage List.mem_cons_self)).closed comma
      rw [loopText_some hne]
      -- the comma behind the last entry stays open, and the bracket comes behind it
      by_cases hmore : ∃ outage, some outage ∈ rest
      · exact scan_string hentry (show scan _ ",\n".toList = some (.outside true) from rfl)
          (ih hrestPrintable hlast hmore true)
      · have hnone : ∀ report ∈ rest, report = none := by
          intro report hreport
          cases report with
          | none => rfl
          | some other => exact absurd ⟨other, hreport⟩ hmore
        have hempty : loopText rest = "" := by
          have hfilter : rest.filterMap id = [] := List.filterMap_eq_nil_iff.mpr hnone
          rw [loopText_ends (Or.inl hnone), hfilter]
          rfl
        rw [hempty]
        exact scan_string hentry (show scan _ ",\n".toList = some (.outside true) from rfl) rfl

theorem not_endsWithData {reports : List (Option Outage)} (h : ¬ EndsWithData reports) :
    reports.getLast? = some none ∧ ∃ outage, some outage ∈ reports := by
  unfold EndsWithData at h
  rw [not_or] at h
  obtain ⟨hall, hlast⟩ := h
  have hsome : ∃ outage, some outage ∈ reports := by
    apply not_forall_not.mp
    intro hno
    apply hall
    intro report hreport
    cases report with
    | none => rfl
    | some outage => exact absurd hreport (hno outage)
  refine ⟨?_, hsome⟩
  cases hget : reports.getLast? with
  | none =>
    rw [List.getLast?_eq_none_iff] at hget
    obtain ⟨outage, houtage⟩ := hsome
    rw [hget] at houtage
    cases houtage
  | some report =>
    cases report with
    | none => rfl
    | some outage => exact absurd ⟨outage, hget⟩ hlast

end

section

variable {env : UptimeEnv} {dcs : List (String × String)}

theorem printable_of_report
    (hnames : ∀ dc ∈ dcs, PlainName dc.1 ∧ PlainName dc.2)
    (hdata : ∀ outage, some outage ∈ reports env dcs →
      JsonText.Number outage.offline ∧ JsonText.Number outage.total)
    {outage : Outage} (h : some outage ∈ reports env dcs) : outage.Printable := by
  obtain ⟨hoffline, htotal⟩ := hdata outage h
  obtain ⟨dc, hdc, hreport⟩ := List.mem_map.mp h
  obtain ⟨reply, _, hread⟩ := Option.bind_eq_some_iff.mp hreport
  have hmem : dc.1 ∈ dcs := (List.mk_mem_zipIdx_iff_getElem?.mp hdc) |> List.mem_of_getElem?
  have hnames := hnames dc.1 hmem
  have hsame : outage.id = dc.1.1 ∧ outage.name = dc.1.2 := by
    unfold readReply at hread
    split at hread
    · split at hread
      · cases hread
      · rw [← Option.some.inj hread]
        exact ⟨rfl, rfl⟩
    · cases hread
  constructor
  · rw [hsame.1]
    exact hnames.1
  · rw [hsame.2]
    exact hnames.2
  · exact hoffline
  · exact htotal

/-- In a well-formed answer no bracket stands behind a comma. -/
theorem endsWithData_of_lists (hrecv : ∀ i < dcs.length, (env.recvx i).isSome)
    (hprintable : ∀ outage, some outage ∈ reports env dcs → outage.Printable)
    (h : ListsOutages env dcs) : EndsWithData (reports env dcs) := by
  obtain ⟨text, hok, ⟨value, hvalue, hwell⟩, -⟩ := h
  apply not_not.mp
  intro hnot
  obtain ⟨hlast, hsome⟩ := not_endsWithData hnot
  have hscan := JsonText.scan_append (.outside false)
    ("\x7b\n\t\"outage\": [\n" ++ loopText (reports env dcs)).toList "\t]\n\x7d\n".toList
  rw [JsonText.scan_string₂ (show JsonText.scan _ "\x7b\n\t\"outage\": [\n".toList =
    some (.outside false) from rfl) (scan_loopText hprintable hlast hsome false),
    ← String.toList_append, ← Except.ok.inj (hok.symm.trans (outages_eq hrecv)), hvalue] at hscan
  have hclosed := JsonText.scan_string₂ (hwell.closed false)
    (show JsonText.scan _ "\n".toList = some (.outside false) from rfl)
  rw [hclosed] at hscan
  cases hscan

/-- The answer is well-formed when the last datacenter was told of, or none was. -/
theorem listsOutages_iff (hrecv : ∀ i < dcs.length, (env.recvx i).isSome)
    (hnames : ∀ dc ∈ dcs, PlainName dc.1 ∧ PlainName dc.2)
    (hdata : ∀ outage, some outage ∈ reports env dcs →
      JsonText.Number outage.offline ∧ JsonText.Number outage.total) :
    ListsOutages env dcs ↔ EndsWithData (reports env dcs) := by
  have hprintable (outage : Outage) (h : some outage ∈ reports env dcs) : outage.Printable :=
    printable_of_report hnames hdata h
  constructor
  · exact endsWithData_of_lists hrecv hprintable
  · intro h
    have htext := outages_eq hrecv
    rw [loopText_ends h] at htext
    have houtages : ∀ outage ∈ (reports env dcs).filterMap id, outage.Printable := by
      intro outage houtage
      obtain ⟨report, hreport, hid⟩ := List.mem_filterMap.mp houtage
      rw [show report = some outage from hid] at hreport
      exact hprintable outage hreport
    exact ⟨_, htext, value_outageDocument houtages, rfl⟩

end

/-- Replies that come one after the other; the last one is repeated. -/
def repliesEnv (first last : UptimeReply) : UptimeEnv where
  split text := [text]
  getItems1 := 1
  nameToExtname name := (0, name)
  mlmClientNew := true
  recvx i := some (if i = 0 then first else last)

/-- A reply with numbers and an error. -/
def dataReply : UptimeReply := ⟨some "3600", some "60"⟩

def errorReply : UptimeReply := ⟨some "ERROR", some "Invalid request"⟩

def twoDatacenters : List (String × String) :=
  [("datacenter-3", "Berlin"), ("datacenter-4", "Prague")]

theorem plain_twoDatacenters : ∀ dc ∈ twoDatacenters, PlainName dc.1 ∧ PlainName dc.2 := by
  intro dc hdc
  unfold twoDatacenters at hdc
  rw [List.mem_cons, List.mem_singleton] at hdc
  rcases hdc with rfl | rfl
  · decide
  · decide

theorem listsOutages_last :
    ListsOutages (repliesEnv errorReply dataReply) twoDatacenters := by
  apply (listsOutages_iff _ _ _).mpr
  · exact Or.inr ⟨⟨"datacenter-4", "Prague", "60", "3600"⟩, rfl⟩
  · exact fun _ _ ↦ rfl
  · exact plain_twoDatacenters
  · intro outage houtage
    have hmem : some outage ∈ [none, some (Outage.mk "datacenter-4" "Prague" "60" "3600")] := houtage
    have heq := (List.mem_cons.mp hmem).resolve_left (by simp)
    obtain rfl := Option.some.inj (List.mem_singleton.mp heq)
    decide

/-- A last datacenter that is skipped leaves a comma before the bracket. -/
theorem comma_before_bracket : ¬ ∀ (env : UptimeEnv) (dcs : List (String × String)), dcs ≠ [] →
    (∀ i < dcs.length, (env.recvx i).isSome) → (∀ dc ∈ dcs, PlainName dc.1 ∧ PlainName dc.2) →
    (∀ outage, some outage ∈ reports env dcs →
      JsonText.Number outage.offline ∧ JsonText.Number outage.total) →
    ListsOutages env dcs := by
  intro hall
  have hrecv : ∀ i < twoDatacenters.length, ((repliesEnv dataReply errorReply).recvx i).isSome :=
    fun _ _ ↦ rfl
  have hreports : reports (repliesEnv dataReply errorReply) twoDatacenters =
      [some ⟨"datacenter-3", "Berlin", "60", "3600"⟩, none] := rfl
  have hdata : ∀ outage, some outage ∈ reports (repliesEnv dataReply errorReply) twoDatacenters →
      JsonText.Number outage.offline ∧ JsonText.Number outage.total := by
    rw [hreports]
    intro outage houtage
    have heq := (List.mem_cons.mp houtage).resolve_right (by simp)
    obtain rfl := Option.some.inj heq
    decide
  have hlists := hall _ _ (List.cons_ne_nil _ _) hrecv plain_twoDatacenters hdata
  have hends := endsWithData_of_lists hrecv
    (fun outage houtage ↦ printable_of_report plain_twoDatacenters hdata houtage) hlists
  rw [hreports] at hends
  rcases hends with hnone | ⟨outage, hlast⟩
  · cases hnone _ List.mem_cons_self
  · cases hlast

end FtyRest.Ecpp
