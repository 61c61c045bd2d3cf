import FtyRest.Ecpp.Mlm

/-!
# Acknowledging an alert

`alert_ack.ecpp`: the state of an alert is set by the agent that holds the alerts, and the answer of
the request is what that agent says.
-/

namespace FtyRest.Ecpp

open Checks Mailbox

def rfcAlertsAcknowledge : String := "rfc-alerts-acknowledge"

structure AckRequest where
  method : String
  ruleName : String
  elementName : String
  body : String

/-- What a request asks its surroundings. -/
structure AckEnv where
  databaseReady : Bool
  /-- `CHECK_USER_PERMISSIONS_OR_DIE_AUDIT` -/
  checkUserPermissions : AckRequest → Except HttpDie Unit
  /-- the member `state` of the document, if it can be read -/
  readState : String → Option String
  checkAssetName : String → Except HttpDie Unit
  checkAlertRuleName : String → Except HttpDie Unit
  /-- what is returned, and the name -/
  extnameToAssetName : String → Int × String
  mlm : Mlm

/-- The members of the answer. -/
structure Acknowledged where
  ruleName : String
  assetId : String
  elementName : String
  state : String
deriving DecidableEq, Repr

def stateValid (state : String) : Bool :=
  ["ACTIVE", "ACK-WIP", "ACK-IGNORE", "ACK-PAUSE", "ACK-SILENCE"].contains (cStr state)

section

variable (env : AckEnv) (request : AckRequest)

/-- Sanity parameter check; the state comes back. -/
def checkAck : Except HttpDie String := do
  require (env.databaseReady = true)
    (internalError "Database is not ready yet, please try again after a while.")
  env.checkUserPermissions request
  require (request.method = "PUT") ⟨"method-not-allowed", [request.method]⟩
  let state ← orThrow ((env.readState request.body).filter (· ≠ ""))
    ⟨"bad-request-document", ["Please check RFC-11 for valid json schema description."]⟩
  require (stateValid state = true) ⟨"request-param-bad", ["state", cStr state,
    "one of the following values [ ACTIVE | ACK-WIP | ACK-IGNORE | ACK-PAUSE | ACK-SILENCE ]."]⟩
  env.checkAssetName request.elementName
  env.checkAlertRuleName request.ruleName
  return state

/-- The name of the asset. -/
def findAsset : Except HttpDie String := do
  let (rv, assetId) := env.extnameToAssetName request.elementName
  require (rv ≠ -1) ⟨"not-found", ["Cannot get asset ID for " ++ cStr request.elementName]⟩
  require (rv ≠ -2) (internalError "Database failure")
  return assetId

end

/-- The frames of the message that is sent. -/
def Acknowledged.frames (ack : Acknowledged) : List String :=
  [cStr ack.ruleName, cStr ack.assetId, cStr ack.state]

/-- The reason of an error. -/
def Acknowledged.refused (ack : Acknowledged) (reason : String) : Ended :=
  if reason = "NOT_FOUND" then
    .died ⟨"not-found", ["Alert identified by rule name = '" ++ cStr ack.ruleName ++
      "' and element name = '" ++ cStr ack.elementName ++ "'"]⟩
  else if reason = "BAD_STATE" then
    .died ⟨"parameter-conflict", ["Alert identified by rule name = '" ++ cStr ack.ruleName ++
      "', element name = '" ++ cStr ack.elementName ++ "' can not change state to '" ++
      cStr ack.state ++ "'."]⟩
  else
    .died (internalError ("Error while setting state of alert identified by rule name = '" ++
      cStr ack.ruleName ++ "', element = '" ++ cStr ack.elementName ++ "' to '" ++ reason ++ "'"))

/-- Check command. Can be OK or ERROR. -/
def Acknowledged.readReply (ack : Acknowledged) (frames : List String) :
    Except Ended Acknowledged := do
  let (command, parts) ← popCommand frames
  if command = "OK" then
    let (rule, parts) ← popPart parts
    require (rule = cStr ack.ruleName) badMessage
    let (asset, parts) ← popPart parts
    require (asset = cStr ack.assetId) badMessage
    let (state, _) ← popPart parts
    require (state = cStr ack.state) badMessage
    return ack
  else if command = "ERROR" then
    let (reason, _) ← popPart parts
    throw (ack.refused reason)
  else throw badMessage

section

variable (env : AckEnv) (request : AckRequest)

/-- Up to the message that is sent. -/
def prepareAck : Except Ended Acknowledged := do
  let state ← (checkAck env request).mapError .died
  prepare env.mlm " " [1000]
  let assetId ← (findAsset env request).mapError .died
  return ⟨request.ruleName, assetId, request.elementName, state⟩

def alertAck : Except Ended Acknowledged := do
  let ack ← prepareAck env request
  let frames ← exchange env.mlm " " env.mlm.agentFtyAlertList rfcAlertsAcknowledge false
  ack.readReply (frames.map cStr)

end

/-! ## When an alert is acknowledged -/

section

variable {env : AckEnv} {request : AckRequest} {ack : Acknowledged}

theorem readReply_eq_ok {frames : List String} {ack' : Acknowledged} :
    ack.readReply frames = .ok ack' ↔ ack' = ack ∧ "OK" :: ack.frames <+: frames := by
  unfold Acknowledged.readReply Acknowledged.frames
  simp only [bind_eq_ok, Prod.exists, popCommand_eq_ok]
  constructor
  · rintro ⟨command, parts, rfl, h⟩
    by_cases hok : command = "OK"
    · rw [if_pos hok] at h
      simp only [bind_eq_ok, Prod.exists, popPart_eq_ok, require_eq_ok, pure_eq_ok] at h
      obtain ⟨_, _, rfl, _, rfl, _, _, rfl, _, rfl, _, rest, rfl, _, rfl, rfl⟩ := h
      rw [hok]
      exact ⟨rfl, rest, rfl⟩
    · rw [if_neg hok] at h
      split at h
      · simp at h
      · cases h
  · rintro ⟨rfl, rest, rfl⟩
    refine ⟨"OK", _, rfl, ?_⟩
    rw [if_pos rfl]
    simp only [bind_eq_ok, Prod.exists, popPart_eq_ok, require_eq_ok, pure_eq_ok]
    exact ⟨_, _, rfl, (), rfl, _, _, rfl, (), rfl, _, _, rfl, (), rfl, trivial⟩

theorem checkAck_state {state : String} (h : checkAck env request = .ok state) :
    stateValid state = true := by
  unfold checkAck at h
  simp only [bind_eq_ok, require_eq_ok, pure_eq_ok] at h
  obtain ⟨_, -, _, -, _, -, _, -, _, hvalid, _, -, _, -, rfl⟩ := h
  exact hvalid

/-- What is acknowledged is what the request asks for. -/
theorem prepareAck_request (h : prepareAck env request = .ok ack) :
    ack.ruleName = request.ruleName ∧ ack.elementName = request.elementName ∧
      stateValid ack.state = true := by
  unfold prepareAck at h
  simp only [bind_eq_ok, mapError_eq_ok, pure_eq_ok] at h
  obtain ⟨state, hstate, _, -, assetId, -, rfl⟩ := h
  exact ⟨rfl, rfl, checkAck_state hstate⟩

theorem alertAck_eq_ok : alertAck env request = .ok ack ↔ prepareAck env request = .ok ack ∧
    ∃ frames, exchange env.mlm " " env.mlm.agentFtyAlertList rfcAlertsAcknowledge false =
      .ok frames ∧ "OK" :: ack.frames <+: frames.map cStr := by
  unfold alertAck
  simp only [bind_eq_ok, readReply_eq_ok]
  constructor
  · rintro ⟨ack', hprepare, frames, hframes, rfl, hprefix⟩
    exact ⟨hprepare, frames, hframes, hprefix⟩
  · rintro ⟨hprepare, frames, hframes, hprefix⟩
    exact ⟨ack, hprepare, frames, hframes, rfl, hprefix⟩

end

/-! ## Requests and the agent -/

/-- The subject and the frames of the message that a request sends. -/
def sentAck (env : AckEnv) (request : AckRequest) : Option (String × List String) :=
  match prepareAck env request with
  | .ok ack => some (rfcAlertsAcknowledge, ack.frames)
  | .error _ => none

section

variable {ι : Type*} [DecidableEq ι] {agent : String}
  {answers : String × List String → Message → Prop}
  {net : Net ι (String × List String) Message}

/-- Whatever other requests the agent has at the same time, and in whatever order it answers them:
where a request says that the alert is acknowledged, the agent has said so to this request, and has
said nothing else to it. -/
theorem alertAck_acknowledged (hanswers : ∀ sent m, answers sent m → cStr m.sender = agent)
    (hnet : Relation.ReflTransGen (Step (fun m : Message ↦ cStr m.sender = agent) answers) {} net)
    {c : ι} {env : AckEnv} {request : AckRequest} (hagent : env.mlm.agentFtyAlertList = agent)
    (hsent : net.sent c = sentAck env request)
    (hwakes : messages env.mlm.wakes = net.received c) {ack : Acknowledged}
    (hack : alertAck env request = .ok ack) :
    (ack.ruleName = request.ruleName ∧ ack.elementName = request.elementName ∧
      stateValid ack.state = true) ∧
    (∃ m ∈ net.received c, answers (rfcAlertsAcknowledge, ack.frames) m ∧
      cStr m.subject = rfcAlertsAcknowledge ∧ "OK" :: ack.frames <+: m.frames.map cStr) ∧
    (net.delivered c).countP (fun m ↦ cStr m.sender = agent) = 1 := by
  obtain ⟨hprepare, frames, hframes, hprefix⟩ := alertAck_eq_ok.mp hack
  have hack' : sentAck env request = some (rfcAlertsAcknowledge, ack.frames) := by
    unfold sentAck
    rw [hprepare]
  rw [hagent] at hframes
  obtain ⟨⟨m, hmem, hanswer, hsubject, rfl⟩, honce⟩ :=
    exchange_answered hanswers hnet hwakes (hsent.trans hack') hframes
  exact ⟨prepareAck_request hprepare, ⟨m, hmem, hanswer, hsubject, hprefix⟩, honce⟩

end

/-- The request of a client for the alert of `load@ups-1`, which has received another message and a
timeout before its reply. -/
def ackEnv : AckEnv where
  databaseReady := true
  checkUserPermissions _ := .ok ()
  readState := some
  checkAssetName _ := .ok ()
  checkAlertRuleName _ := .ok ()
  extnameToAssetName _ := (0, "ups-1")
  mlm :=
    { agentFtyAlertList := "fty-alert-list"
      clientNew := true
      connect := fun _ ↦ true
      zmsgNew := true
      sendto := true
      msgpipe := true
      pollerNew := true
      wakes := [.readable (some ⟨"fty-asset", "NOTICE", []⟩), .expired,
        .readable (some ⟨"fty-alert-list", rfcAlertsAcknowledge,
          ["OK", "load@ups-1", "ups-1", "ACK-WIP"]⟩)] }

theorem alertAck_acknowledged_later : ∃ net : Net Bool (String × List String) Message,
    net.inbox = [] ∧ (net.delivered true).countP (fun m ↦ cStr m.sender = "fty-alert-list") = 1 := by
  -- the agent gets the request of the other client later and answers it first
  let sent : String × List String := (rfcAlertsAcknowledge, ["load@ups-1", "ups-1", "ACK-WIP"])
  let other : String × List String := (rfcAlertsAcknowledge, ["load@ups-1", "ups-1", "ACTIVE"])
  let answers : String × List String → Message → Prop :=
    fun sent m ↦ m = ⟨"fty-alert-list", sent.1, "OK" :: sent.2⟩
  let request : AckRequest := ⟨"PUT", "load@ups-1", "UPS", "ACK-WIP"⟩
  have hsender : cStr "fty-alert-list" = "fty-alert-list" := by decide +kernel
  have hsentAck : sentAck ackEnv ⟨"PUT", "load@ups-1", "UPS", "ACK-WIP"⟩ =
      some (rfcAlertsAcknowledge, ["load@ups-1", "ups-1", "ACK-WIP"]) := by decide +kernel
  have hstart : Relation.ReflTransGen
      (Step (fun m : Message ↦ cStr m.sender = "fty-alert-list") answers)
      ({} : Net Bool (String × List String) Message) {} := .refl
  have hsent := (hstart.tail (.send true sent rfl)).tail (.send false other rfl)
  have hother := (hsent.tail (.answer false other _ [(true, sent)] [] rfl rfl)).tail
    (.foreign true ⟨"fty-asset", "NOTICE", []⟩ (by decide +kernel))
  have hanswered := hother.tail (.answer true sent _ [] [] rfl rfl)
  have hrun := (hanswered.tail (.receive true _ _ rfl)).tail (.receive true _ _ rfl)
  refine ⟨_, ?_, (@alertAck_acknowledged Bool _ _ _ _ ?_ hrun true ackEnv request rfl ?_ rfl
    ⟨"load@ups-1", "ups-1", "UPS", "ACK-WIP"⟩ ?_).2.2⟩
  · rfl
  · rintro sent m rfl
    exact hsender
  · exact hsentAck.symm
  · decide +kernel

end FtyRest.Ecpp
