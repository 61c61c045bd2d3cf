import FtyRest.Ecpp.AlertCounters
import FtyRest.Ecpp.Mlm
import FtyRest.Lib.JsonText
import FtyRest.Lib.PickByKey
import FtyRest.Shared.AssetObject
import FtyRest.Shared.UpdateDescription

/-!
# The list of alerts

`alert_list.ecpp`, with `getJsonAlert` of `shared/utils_json.cc`: the alerts of a state, of an asset
or of what is under it, and how they go together with the counters.
-/

namespace FtyRest.Ecpp

open Checks Mailbox JsonText Shared

def rfcAlertsList : String := "rfc-alerts-list"

/-- An alert as its agent sends it. -/
structure ProtoAlert extends Alert where
  rule : String
  description : String
  metadata : String
  ctime : Option Nat
  time : Nat
deriving DecidableEq, Repr

/-- What `zmsg_decode` and `fty_proto_decode` make of a frame. -/
inductive ProtoFrame where
  | badFrame
  | undecodable
  | otherMessage
  | alert (decoded : ProtoAlert)
deriving DecidableEq, Repr

/-- What a request asks its surroundings, beside what the counters ask. -/
structure ListEnv extends CounterEnv where
  databaseReady : Bool
  checkUserPermissions : Except HttpDie Unit
  mlm : Mlm
  decode : String → ProtoFrame
  calendarToDatetime : Nat → Option String
  /-- the id of an asset, by its name -/
  elementId : String → Nat
  idToNameExtName : Nat → String × String
  jsonify : String → String → String

/-- The checked parameters of a request. -/
structure ListFilter where
  checkedState : String
  checkedAsset : String
  desiredElements : List String
deriving DecidableEq, Repr

def isAlertstate (state : String) : Bool :=
  ["ACTIVE", "ACK-WIP", "ACK-IGNORE", "ACK-PAUSE", "ACK-SILENCE", "RESOLVED"].contains state

def isRequeststate (state : String) : Bool :=
  if state = "ALL" ∨ state = "ALL-ACTIVE" then true else isAlertstate state

def isStateIncluded (request alert : String) : Bool :=
  if isRequeststate request = false then false
  else if isAlertstate alert = false then false
  else if request = "ALL" then true
  else if request = "ALL-ACTIVE" ∧ alert ≠ "RESOLVED" then true
  else request = alert

/-! ## The request -/

section

variable (env : ListEnv)

def checkState (state : String) : Except HttpDie String :=
  if state = "" then .ok "ALL-ACTIVE"
  else if isRequeststate (cStr state) = false then
    .error ⟨"request-param-bad", ["state", "value '" ++ cStr state ++ "'",
      "one of the following values [ ALL | ALL-ACTIVE | ACTIVE | ACK-WIP | ACK-IGNORE | ACK-PAUSE" ++
        " | ACK-SILENCE | RESOLVED ]"]⟩
  else .ok state

/-- The error names the value of the state. -/
def checkRecursive (state recursive : String) : Except HttpDie String :=
  if recursive = "" then .ok "false"
  else if recursive ≠ "true" ∧ recursive ≠ "false" then
    .error ⟨"request-param-bad", ["recursive", "value '" ++ cStr state ++ "'",
      "one of the following values [true | false]"]⟩
  else .ok recursive

def listElements (checkedAsset checkedRecursive : String) (elementId : Nat) :
    Except HttpDie (List String) :=
  if checkedAsset = "" then .ok []
  else do
    let name ← (env.selectAssetElementWebById elementId).mapError internalError
    if checkedRecursive = "true" then
      let names ← (env.selectAssetsByContainer elementId).mapError internalError
      return name :: names
    else return [name]

def checkList (param : String → String) : Except HttpDie ListFilter := do
  require (env.databaseReady = true)
    (internalError "Database is not ready yet, please try again after a while.")
  env.checkUserPermissions
  let checkedState ← checkState (param "state")
  let checkedRecursive ← checkRecursive checkedState (param "recursive")
  checkIn env.toCounterEnv (param "asset")
  let elementId ← checkElement env.toCounterEnv (param "asset")
  env.connect.mapError internalError
  let desiredElements ← listElements env (param "asset") checkedRecursive elementId
  return ⟨checkedState, param "asset", desiredElements⟩

/-! ## The answer -/

def jsonAlertMembers (alert : ProtoAlert) (timestamp extName : String) (item : AssetElement) :
    List String :=
  [env.jsonify "timestamp" timestamp,
   env.jsonify "rule_name" alert.rule,
   env.jsonify "element_id" alert.name,
   env.jsonify "element_name" extName,
   env.jsonify "element_type" item.typeName,
   env.jsonify "element_sub_type" (strip item.subtypeName),
   env.jsonify "state" alert.state,
   env.jsonify "severity" alert.severity,
   env.jsonify "description"
     (.ofList (updateDescription extName.toList alert.description.toList)),
   env.jsonify "metadata" (if alert.metadata ≠ "" then alert.metadata else "\x7b\x7d")]

/-- Without a time or an asset with a name the text is empty. -/
def getJsonAlert (alert : ProtoAlert) : String :=
  match env.calendarToDatetime (alert.ctime.getD alert.time) with
  | none => ""
  | some timestamp =>
      match env.selectAssetElementWebByName alert.name with
      | none => ""
      | some item =>
          let names := env.idToNameExtName (env.elementId alert.name)
          if names.1 = "" ∧ names.2 = "" then ""
          else "\x7b" ++ commaText (jsonAlertMembers env alert timestamp names.2 item) ++ "\x7d"

/-- The text of a frame, unless it is skipped. -/
def listFrame (filter : ListFilter) : ProtoFrame → Option String
  | .badFrame | .undecodable | .otherMessage => none
  | .alert decoded =>
      if filter.checkedAsset ≠ "" ∧ decoded.name ∉ filter.desiredElements then none
      else if isStateIncluded (cStr filter.checkedState) decoded.state = false then none
      else
        let jsonAlert := getJsonAlert env decoded
        if jsonAlert = "" then none else some jsonAlert

/-- One turn of the loop; the flag tells that it is not the first one that is printed. -/
def printFrame (filter : ListFilter) (printed : String × Bool) (frame : ProtoFrame) :
    String × Bool :=
  match listFrame env filter frame with
  | none => printed
  | some jsonAlert => appendItem printed jsonAlert

/-- The array, without the blanks of the page. -/
def printAlerts (filter : ListFilter) (frames : List ProtoFrame) : String :=
  "[" ++ (frames.foldl (printFrame env filter) ("", false)).1 ++ "]"

def ListFilter.refused (filter : ListFilter) (reason : String) : Ended :=
  if reason = "NOT_FOUND" then
    .died ⟨"not-found", ["State '" ++ cStr filter.checkedState ++ "'"]⟩
  else .died (internalError ("Error while requesting list of alerts: " ++ reason))

/-- Check command. Can be LIST or ERROR. -/
def readAlertList (filter : ListFilter) (frames : List String) : Except Ended String := do
  let (command, parts) ← popCommand (frames.map cStr)
  if command = "LIST" then
    let (state, _) ← popPart parts
    require (state = cStr filter.checkedState) badMessage
    return printAlerts env filter ((frames.drop 2).map env.decode)
  else if command = "ERROR" then
    let (reason, _) ← popPart parts
    throw (filter.refused reason)
  else throw badMessage

def alertList (param : String → String) : Except Ended String := do
  let filter ← (checkList env param).mapError .died
  prepare env.mlm "" [1000]
  let frames ← exchange env.mlm "" env.mlm.agentFtyAlertList rfcAlertsList true
  readAlertList env filter frames

end

/-! ## What is listed -/

/-- The texts of the alerts that are listed, in the order of the reply. -/
def listedTexts (env : ListEnv) (filter : ListFilter) (frames : List ProtoFrame) : List String :=
  frames.filterMap (listFrame env filter)

section

variable {env : ListEnv} {filter : ListFilter} {frames : List ProtoFrame} {alert : ProtoAlert}

theorem foldl_printFrame (frames : List ProtoFrame) :
    frames.foldl (printFrame env filter) ("", false) =
      itemsText (listedTexts env filter frames) := by
  unfold listedTexts
  induction frames using List.reverseRecOn with
  | nil => rfl
  | append_singleton frames frame ih =>
    rw [List.foldl_append, ih, List.foldl_cons, List.foldl_nil, List.filterMap_append]
    unfold printFrame
    cases hframe : listFrame env filter frame with
    | none => simp [hframe]
    | some text =>
      dsimp only
      rw [appendItem_itemsText]
      simp [hframe]

theorem printAlerts_eq (frames : List ProtoFrame) :
    printAlerts env filter frames = "[" ++ commaText (listedTexts env filter frames) ++ "]" := by
  unfold printAlerts
  rw [foldl_printFrame]
  rfl

/-- An alert that is printed is an object, and its asset is known. -/
theorem getJsonAlert_cases (h : getJsonAlert env alert ≠ "") :
    ∃ timestamp extName item, env.selectAssetElementWebByName alert.name = some item ∧
      getJsonAlert env alert =
        "\x7b" ++ commaText (jsonAlertMembers env alert timestamp extName item) ++ "\x7d" := by
  unfold getJsonAlert at h ⊢
  split at h
  · exact absurd rfl h
  · split at h
    · exact absurd rfl h
    · rename_i timestamp htime _ item hitem
      dsimp only at h ⊢
      split at h
      · exact absurd rfl h
      · rename_i hnames
        rw [if_neg hnames]
        exact ⟨timestamp, _, item, hitem, rfl⟩

theorem getJsonAlert_value (hjsonify : ∀ key value, Members (env.jsonify key value))
    (h : getJsonAlert env alert ≠ "") : Value (getJsonAlert env alert) := by
  obtain ⟨timestamp, extName, item, -, htext⟩ := getJsonAlert_cases h
  rw [htext]
  apply Value.object
  apply members_commaText (List.cons_ne_nil _ _)
  intro text htext
  simp only [List.mem_cons, List.not_mem_nil, or_false] at htext
  rcases htext with rfl | rfl | rfl | rfl | rfl | rfl | rfl | rfl | rfl | rfl
  all_goals exact hjsonify _ _

theorem listFrame_eq_some {frame : ProtoFrame} {text : String} :
    listFrame env filter frame = some text ↔ ∃ decoded, frame = .alert decoded ∧
      (filter.checkedAsset ≠ "" → decoded.name ∈ filter.desiredElements) ∧
      isStateIncluded (cStr filter.checkedState) decoded.state = true ∧
      text = getJsonAlert env decoded ∧ text ≠ "" := by
  cases frame with
  | alert decoded =>
    unfold listFrame
    dsimp only
    split_ifs with hasset hstate hjson
    · simp_all
    · simp_all
    · simp_all
    · simp_all
      exact ⟨fun h ↦ ⟨h.symm, h ▸ hjson⟩, fun h ↦ h.1.symm⟩
  | _ => simp [listFrame]

theorem readAlertList_eq_ok {parts : List String} {text : String} :
    readAlertList env filter parts = .ok text ↔
      ["LIST", cStr filter.checkedState] <+: parts.map cStr ∧
        text = printAlerts env filter ((parts.drop 2).map env.decode) := by
  unfold readAlertList
  simp only [bind_eq_ok, Prod.exists, popCommand_eq_ok]
  constructor
  · rintro ⟨command, rest, hparts, h⟩
    -- any other command is an error, whatever follows it
    by_cases hlist : command = "LIST"
    · rw [if_pos hlist] at h
      simp only [bind_eq_ok, Prod.exists, popPart_eq_ok, require_eq_ok, pure_eq_ok] at h
      obtain ⟨_, rest, rfl, _, rfl, rfl⟩ := h
      rw [hparts, hlist]
      exact ⟨⟨rest, rfl⟩, rfl⟩
    · rw [if_neg hlist] at h
      split at h
      · simp at h
      · cases h
  · rintro ⟨⟨rest, hparts⟩, rfl⟩
    refine ⟨"LIST", cStr filter.checkedState :: rest, hparts.symm, ?_⟩
    rw [if_pos rfl]
    simp only [bind_eq_ok, Prod.exists, popPart_eq_ok, require_eq_ok, pure_eq_ok]
    exact ⟨_, _, rfl, (), rfl, trivial⟩

/-- A list is the text of an array with the alerts of the reply that it is for, in their order. -/
theorem alertList_lists (hjsonify : ∀ key value, Members (env.jsonify key value))
    {param : String → String} {text : String} (h : alertList env param = .ok text) :
    Value text ∧ ∃ filter parts, checkList env param = .ok filter ∧
      exchange env.mlm "" env.mlm.agentFtyAlertList rfcAlertsList true = .ok parts ∧
      ["LIST", cStr filter.checkedState] <+: parts.map cStr ∧
      text = "[" ++ commaText (listedTexts env filter ((parts.drop 2).map env.decode)) ++ "]" := by
  unfold alertList at h
  simp only [bind_eq_ok, mapError_eq_ok, readAlertList_eq_ok] at h
  obtain ⟨filter, hfilter, _, -, parts, hparts, hprefix, rfl⟩ := h
  rw [printAlerts_eq]
  refine ⟨?_, filter, parts, hfilter, hparts, hprefix, rfl⟩
  apply value_commaText
  intro text htext
  obtain ⟨frame, -, hframe⟩ := List.mem_filterMap.mp htext
  obtain ⟨decoded, -, -, -, rfl, hne⟩ := listFrame_eq_some.mp hframe
  exact getJsonAlert_value hjsonify hne

/-! ## The states -/

def alertstates : List String :=
  ["ACTIVE", "ACK-WIP", "ACK-IGNORE", "ACK-PAUSE", "ACK-SILENCE", "RESOLVED"]

theorem isAlertstate_iff {state : String} : isAlertstate state = true ↔ state ∈ alertstates :=
  List.contains_iff_mem

theorem isStateIncluded_iff {request alert : String} :
    isStateIncluded request alert = true ↔ alert ∈ alertstates ∧
      (request = "ALL" ∨ request = "ALL-ACTIVE" ∧ alert ≠ "RESOLVED" ∨ request = alert) := by
  rw [← isAlertstate_iff]
  unfold isStateIncluded isRequeststate
  cases halert : isAlertstate alert with
  | false => simp
  | true =>
    by_cases hall : request = "ALL"
    · simp [hall]
    · by_cases hactive : request = "ALL-ACTIVE"
      · subst hactive
        by_cases hresolved : alert = "RESOLVED"
        · subst hresolved
          simp
        · simp [hresolved]
      · by_cases heq : request = alert
        · subst heq
          simp [hall, hactive, halert]
        · simp [hall, hactive, heq]

/-- The state that decides in which lists a frame is. -/
def ProtoFrame.state : ProtoFrame → String
  | .alert decoded => decoded.state
  | _ => ""

theorem requeststates_cStr :
    ("ALL" :: "ALL-ACTIVE" :: alertstates).all (fun state ↦ cStr state = state) = true := by
  decide +kernel

theorem cStr_requeststate {state : String} (h : state ∈ "ALL" :: "ALL-ACTIVE" :: alertstates) :
    cStr state = state :=
  of_decide_eq_true (List.all_eq_true.mp requeststates_cStr state h)

/-- The list of all alerts has those of every other list. -/
theorem listFrame_all (decoded : ProtoAlert) :
    listFrame env filter (.alert decoded) =
      if isStateIncluded (cStr filter.checkedState) decoded.state = true then
        listFrame env { filter with checkedState := "ALL" } (.alert decoded)
      else none := by
  have hall : cStr "ALL" = "ALL" := cStr_requeststate List.mem_cons_self
  unfold listFrame
  dsimp only
  rw [hall]
  by_cases hstate : isStateIncluded (cStr filter.checkedState) decoded.state = true
  · -- a state that some list asks for is one that the list of all has
    have hincluded : isStateIncluded "ALL" decoded.state = true :=
      isStateIncluded_iff.mpr ⟨(isStateIncluded_iff.mp hstate).1, Or.inl rfl⟩
    rw [if_pos hstate, hstate, hincluded]
  · rw [if_neg hstate, if_pos (Bool.eq_false_iff.mpr hstate)]
    split
    · rfl
    · rfl

theorem listedTexts_filter {state : String} {p : String → Prop} [DecidablePred p]
    (h : ∀ alert, isStateIncluded (cStr state) alert = true ↔ p alert) :
    listedTexts env { filter with checkedState := state } frames =
      listedTexts env { filter with checkedState := "ALL" }
        (frames.filter fun frame ↦ p frame.state) := by
  unfold listedTexts
  rw [List.filterMap_filter]
  apply List.filterMap_congr
  intro frame _
  cases frame with
  | alert decoded =>
    rw [listFrame_all]
    by_cases hp : p (ProtoFrame.alert decoded).state
    · have hincluded : isStateIncluded (cStr state) decoded.state = true := (h _).mpr hp
      rw [if_pos hincluded, if_pos (decide_eq_true hp)]
    · have hincluded : ¬ isStateIncluded (cStr state) decoded.state = true :=
        fun hincluded ↦ hp ((h _).mp hincluded)
      rw [if_neg hincluded, if_neg fun hd ↦ hp (of_decide_eq_true hd)]
  | _ => simp [listFrame]

/-- The states of the alerts that a list is for. -/
def statesOf (request : String) : List String :=
  alertstates.filter fun state ↦ isStateIncluded (cStr request) state

theorem mem_statesOf {request state : String} :
    state ∈ statesOf request ↔ isStateIncluded (cStr request) state = true := by
  unfold statesOf
  rw [List.mem_filter]
  exact and_iff_right_of_imp fun h ↦ (isStateIncluded_iff.mp h).1

theorem isStateIncluded_state {state alert : String} (h : state ∈ alertstates) :
    isStateIncluded (cStr state) alert = true ↔ alert = state := by
  have hspecial : state ≠ "ALL" ∧ state ≠ "ALL-ACTIVE" := by
    constructor
    · rintro rfl
      exact absurd h (by decide)
    · rintro rfl
      exact absurd h (by decide)
  rw [cStr_requeststate (List.mem_cons_of_mem _ (List.mem_cons_of_mem _ h)), isStateIncluded_iff]
  constructor
  · rintro ⟨-, hall | ⟨hactive, -⟩ | heq⟩
    · exact absurd hall hspecial.1
    · exact absurd hactive hspecial.2
    · exact heq.symm
  · rintro rfl
    exact ⟨h, Or.inr (Or.inr rfl)⟩

/-- The lists for the single states have together what the list for all of them has, each alert
once. -/
theorem listedTexts_perm (env : ListEnv) (filter : ListFilter) (frames : List ProtoFrame) :
    ((statesOf filter.checkedState).flatMap fun state ↦
      listedTexts env { filter with checkedState := state } frames).Perm
        (listedTexts env filter frames) := by
  -- both sides pick from the list of all alerts, by the state of each
  have hsingle : ∀ state ∈ statesOf filter.checkedState,
      listedTexts env { filter with checkedState := state } frames =
        (frames.filter fun frame ↦ frame.state = state).filterMap
          (listFrame env { filter with checkedState := "ALL" }) := by
    intro state hstate
    exact listedTexts_filter fun _ ↦
      isStateIncluded_state (isStateIncluded_iff.mp (mem_statesOf.mp hstate)).1
  have hwhole : listedTexts env filter frames =
      (frames.filter fun frame ↦ frame.state ∈ statesOf filter.checkedState).filterMap
        (listFrame env { filter with checkedState := "ALL" }) :=
    @listedTexts_filter env filter frames filter.checkedState _ _ fun _ ↦ mem_statesOf.symm
  have hnodup : (statesOf filter.checkedState).Nodup := List.Nodup.filter _ (by decide)
  rw [List.flatMap_congr hsingle, ← List.filterMap_flatMap, hwhole]
  exact (PickByKey.flatMap_filter_perm hnodup).filterMap _

end

/-! ## The list and the counters -/

/-- The frame as the counters read it. -/
def ProtoFrame.counted : ProtoFrame → AlertFrame
  | .badFrame => .badFrame
  | .undecodable => .undecodable
  | .otherMessage => .otherMessage
  | .alert decoded => .alert decoded.toAlert

/-- The assets with an alert in a list. -/
def listedAssets (env : ListEnv) (filter : ListFilter) (frames : List ProtoFrame) : Finset String :=
  alertedAssets ((frames.filter fun frame ↦ (listFrame env filter frame).isSome).map
    ProtoFrame.counted)

/-- The assets that the counters count, as criticals or as warnings. -/
def countedAssets (env : CounterEnv) (filter : AlertFilter) (frames : List AlertFrame) :
    Finset String :=
  criticalAssets env filter frames ∪ countedWarnings env filter frames

/-- An active alert of the asset that can be printed. -/
def Printable (env : ListEnv) (frames : List ProtoFrame) (name : String) : Prop :=
  ∃ decoded, .alert decoded ∈ frames ∧ decoded.name = name ∧ decoded.state = "ACTIVE" ∧
    getJsonAlert env decoded ≠ ""

/-- Two replies of the agent have the same active alerts. -/
def SameActive (frames : List ProtoFrame) (frames' : List AlertFrame) : Prop :=
  ∀ name severity, HasActive frames' name severity ↔
    ∃ decoded, .alert decoded ∈ frames ∧ decoded.toAlert = ⟨name, "ACTIVE", severity⟩

section

variable {env : ListEnv} {filter : ListFilter} {frames : List ProtoFrame} {name : String}

theorem mem_listedAssets (hstate : filter.checkedState = "ACTIVE") :
    name ∈ listedAssets env filter frames ↔
      (filter.checkedAsset ≠ "" → name ∈ filter.desiredElements) ∧
        Printable env frames name := by
  have hself : cStr "ACTIVE" = "ACTIVE" := cStr_requeststate (by decide)
  have hcStr : cStr filter.checkedState = "ACTIVE" := by rw [hstate, hself]
  have hactive : "ACTIVE" ∈ alertstates := by decide
  unfold listedAssets alertedAssets
  rw [List.mem_toFinset, List.mem_filterMap]
  constructor
  · rintro ⟨frame, hframe, hname⟩
    obtain ⟨proto, hproto, rfl⟩ := List.mem_map.mp hframe
    obtain ⟨hmem, hlisted⟩ := List.mem_filter.mp hproto
    obtain ⟨text, htext⟩ := Option.isSome_iff_exists.mp hlisted
    obtain ⟨decoded, rfl, hasset, hincluded, rfl, hne⟩ := listFrame_eq_some.mp htext
    obtain rfl : decoded.name = name := Option.some.inj hname
    -- a list of the active alerts has alerts in this state only
    rw [hcStr, ← hself, isStateIncluded_state hactive] at hincluded
    exact ⟨hasset, decoded, hmem, rfl, hincluded, hne⟩
  · rintro ⟨hasset, decoded, hmem, rfl, hdecoded, hne⟩
    refine ⟨_, List.mem_map_of_mem (List.mem_filter.mpr ⟨hmem, ?_⟩), rfl⟩
    rw [Option.isSome_iff_exists]
    refine ⟨_, listFrame_eq_some.mpr ⟨decoded, rfl, hasset, ?_, rfl, hne⟩⟩
    rw [hcStr, hdecoded]
    decide

theorem mem_countedAssets {env : CounterEnv} {filter : AlertFilter} {frames : List AlertFrame} :
    name ∈ countedAssets env filter frames ↔
      Matches env filter name ∧ ∃ severity, HasActive frames name severity := by
  unfold countedAssets
  rw [Finset.mem_union, mem_criticalAssets, mem_countedWarnings, (lookup_deviceStates frames name).2]
  by_cases hcritical : HasActive frames name "CRITICAL"
  · simp only [hcritical, not_true_eq_false, and_false, or_false, and_true]
    exact (and_iff_left ⟨_, hcritical⟩).symm
  · simp only [hcritical, and_false, false_or, not_false_eq_true, and_true]

theorem card_countedAssets (env : CounterEnv) (filter : AlertFilter) (frames : List AlertFrame) :
    (countedAssets env filter frames).card =
      (deviceStates env filter frames).counters.counterWarning +
        (deviceStates env filter frames).counters.counterCritical := by
  unfold countedAssets
  rw [Finset.card_union_of_disjoint, counterWarning_eq, counterCritical_eq, Nat.add_comm]
  apply Finset.disjoint_left.mpr
  intro name hcritical hwarning
  rw [mem_countedWarnings, (lookup_deviceStates frames name).2] at hwarning
  exact hwarning.2.2 (mem_criticalAssets.mp hcritical).2

/-- The list of an asset with all that is under it is for the assets that the counters are for. -/
theorem checkRequest_of_checkList {param params : String → String}
    (hin : params "in" = param "asset") (hrecursive : param "recursive" = "true") (htype : params "type" = "")
    (hsubtype : params "sub_type" = "") (h : checkList env param = .ok filter) :
    checkRequest env.toCounterEnv params =
      .ok ⟨filter.checkedAsset, "", [], filter.desiredElements⟩ := by
  unfold checkList at h
  simp only [bind_eq_ok, mapError_eq_ok, pure_eq_ok] at h
  obtain ⟨_, -, _, -, state, -, recursive, hrec, _, hcheckIn, elementId, helement, _, hconnect,
    desired, hdesired, rfl⟩ := h
  -- without types to ask for, the counters take the same elements as the list
  have htrue : recursive = "true" := by
    rw [hrecursive] at hrec
    exact (Except.ok.inj hrec).symm
  rw [htrue] at hdesired
  unfold checkRequest
  rw [hin, htype, hsubtype]
  simp only [bind_eq_ok, mapError_eq_ok, pure_eq_ok]
  refine ⟨_, hcheckIn, (), rfl, [], rfl, elementId, helement, _, hconnect, desired, ?_, rfl⟩
  rw [← hdesired]
  unfold desiredElements listElements
  split
  · rfl
  · rfl

theorem checkList_state {param : String → String} (hstate : param "state" = "ACTIVE")
    (h : checkList env param = .ok filter) : filter.checkedState = "ACTIVE" := by
  have hactive : checkState "ACTIVE" = .ok "ACTIVE" := by decide +kernel
  unfold checkList at h
  simp only [bind_eq_ok, mapError_eq_ok, pure_eq_ok, hstate] at h
  obtain ⟨_, -, _, -, state, hcheck, _, -, _, -, _, -, _, -, _, -, rfl⟩ := h
  exact (Except.ok.inj (hactive.symm.trans hcheck)).symm

/-- A list of the active alerts shows as many assets as the counters count, just when each asset
that is counted has an alert that can be printed. -/
theorem listedAssets_card_iff {param params : String → String} {frames' : List AlertFrame}
    {counters : Counters} (hstate : param "state" = "ACTIVE")
    (hrecursive : param "recursive" = "true") (hin : params "in" = param "asset")
    (htype : params "type" = "") (hsubtype : params "sub_type" = "")
    (hlist : checkList env param = .ok filter) (hframes : env.rfcAlertsList = .ok frames')
    (hcounters : alertAssetsStatesCounter env.toCounterEnv params = .ok counters)
    (hsame : SameActive frames frames') :
    (listedAssets env filter frames).card = counters.counterWarning + counters.counterCritical ↔
      ∀ name, Matches env.toCounterEnv ⟨filter.checkedAsset, "", [], filter.desiredElements⟩ name →
        (∃ severity, HasActive frames' name severity) → Printable env frames name := by
  obtain ⟨afilter, frames'', hafilter, hframes'', rfl⟩ := alertAssetsStatesCounter_ok hcounters
  have hframesEq := hframes.symm.trans hframes''
  have hfilterEq :=
    (checkRequest_of_checkList hin hrecursive htype hsubtype hlist).symm.trans hafilter
  cases hframesEq
  cases hfilterEq
  have hchecked : filter.checkedState = "ACTIVE" := checkList_state hstate hlist
  rw [← card_countedAssets]
  -- whatever is listed is counted, so the numbers agree just when the sets do
  have hsubset : listedAssets env filter frames ⊆ countedAssets env.toCounterEnv
      ⟨filter.checkedAsset, "", [], filter.desiredElements⟩ frames' := by
    intro name hname
    obtain ⟨hasset, decoded, hmem, rfl, hdecoded, hne⟩ := (mem_listedAssets hchecked).mp hname
    obtain ⟨_, _, item, hitem, -⟩ := getJsonAlert_cases hne
    rw [mem_countedAssets]
    refine ⟨⟨hasset, item, hitem, fun h ↦ absurd rfl h, fun h ↦ absurd rfl h⟩,
      decoded.severity, (hsame _ _).mpr ⟨decoded, hmem, ?_⟩⟩
    rw [← hdecoded]
  constructor
  · intro hcard name hmatches hactive
    have heq := Finset.eq_of_subset_of_card_le hsubset hcard.ge
    have hmem := mem_countedAssets.mpr ⟨hmatches, hactive⟩
    rw [← heq, mem_listedAssets hchecked] at hmem
    exact hmem.2
  · intro h
    apply congrArg Finset.card
    apply Finset.Subset.antisymm hsubset
    intro name hname
    obtain ⟨hmatches, hactive⟩ := mem_countedAssets.mp hname
    exact (mem_listedAssets hchecked).mpr ⟨hmatches.1, h name hmatches hactive⟩

end

/-- A reply with one alert of a ups, and a frame that is none. -/
def oneAlertEnv : ListEnv where
  toCounterEnv := { oneUps with rfcAlertsList := .ok [.alert ⟨"ups-2", "ACTIVE", "WARNING"⟩] }
  databaseReady := true
  checkUserPermissions := .ok ()
  mlm :=
    { agentFtyAlertList := "fty-alert-list"
      clientNew := true
      connect := fun _ ↦ true
      zmsgNew := true
      sendto := true
      msgpipe := true
      pollerNew := true
      wakes := [.readable (some ⟨"fty-alert-list", rfcAlertsList,
        ["LIST", "ACTIVE", "frame 1", "frame 2"]⟩)] }
  decode frame :=
    if frame = "frame 1" then .undecodable
    else .alert ⟨⟨"ups-2", "ACTIVE", "WARNING"⟩, "load@ups-2", "", "", none, 1⟩
  calendarToDatetime _ := some "1970-01-01T00:00:01Z"
  elementId _ := 2
  idToNameExtName _ := ("ups-2", "UPS \"2\"")
  jsonify := escapingJsonify

def oneAlertParam (name : String) : String :=
  if name = "state" then "ACTIVE" else if name = "recursive" then "true" else "datacenter-1"

theorem alertList_lists_ups : ∃ text, alertList oneAlertEnv oneAlertParam = .ok text ∧
    Value text := by
  have hok : (alertList oneAlertEnv oneAlertParam).isOk = true := by decide +kernel
  cases h : alertList oneAlertEnv oneAlertParam with
  | error e =>
    rw [h] at hok
    cases hok
  | ok text => exact ⟨text, rfl, (alertList_lists escapingJsonify_members h).1⟩

theorem listedAssets_card_iff_ups :
    (listedAssets oneAlertEnv ⟨"ACTIVE", "datacenter-1", ["datacenter-1", "ups-2"]⟩
      [oneAlertEnv.decode "frame 1", oneAlertEnv.decode "frame 2"]).card = 1 + 0 := by
  let decoded : ProtoAlert :=
    ⟨⟨"ups-2", "ACTIVE", "WARNING"⟩, "load@ups-2", "", "", none, 1⟩
  have hdecode : oneAlertEnv.decode "frame 2" = .alert decoded := by decide +kernel
  have hmem : .alert decoded ∈ [oneAlertEnv.decode "frame 1", oneAlertEnv.decode "frame 2"] := by
    rw [hdecode]
    exact List.mem_cons_of_mem _ List.mem_cons_self
  refine (@listedAssets_card_iff oneAlertEnv _ _ oneAlertParam
    (fun name ↦ if name = "in" then "datacenter-1" else "") _ ⟨1, 0⟩
    ?_ ?_ ?_ ?_ ?_ ?_ rfl ?_ ?_).mpr ?_
  · decide +kernel
  · decide +kernel
  · decide +kernel
  · decide +kernel
  · decide +kernel
  · decide +kernel
  · decide +kernel
  · intro name severity
    unfold HasActive
    rw [List.mem_singleton]
    constructor
    · intro h
      rw [AlertFrame.alert.injEq] at h
      exact ⟨decoded, hmem, h.symm⟩
    · rintro ⟨other, hother, hactive⟩
      have hframe : oneAlertEnv.decode "frame 1" = .undecodable := by decide +kernel
      rw [hframe, hdecode] at hother
      simp only [List.mem_cons, reduceCtorEq, ProtoFrame.alert.injEq, List.not_mem_nil, or_false,
        false_or] at hother
      rw [← hactive, hother]
  · rintro name hmatches ⟨severity, hactive⟩
    have heq := List.mem_singleton.mp hactive
    rw [AlertFrame.alert.injEq, Alert.mk.injEq] at heq
    refine ⟨decoded, hmem, heq.1.symm, rfl, ?_⟩
    intro hempty
    have htext : getJsonAlert oneAlertEnv decoded = "\x7b" ++ commaText
        (jsonAlertMembers oneAlertEnv decoded "1970-01-01T00:00:01Z" "UPS \"2\"" ⟨"device", "ups"⟩) ++
        "\x7d" := rfl
    rw [htext] at hempty
    simp at hempty

end FtyRest.Ecpp
