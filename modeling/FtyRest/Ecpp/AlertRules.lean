import FtyRest.Ecpp.Mlm
import FtyRest.Lib.GreedyPattern

/-!
# The alert rules

`alert_rules.ecpp`: a rule is kept by one of two engines, which tells what the document of the rule
is.
-/

namespace FtyRest.Ecpp

open Checks Mailbox GreedyPattern

def rfcEvaluatorRules : String := "rfc-evaluator-rules"

structure RuleRequest where
  method : String
  name : String
  body : String

structure RulesEnv where
  checkUserPermissions : Except HttpDie Unit
  checkAlertRuleName : String → Except HttpDie Unit
  mlm : Mlm

/-! ## The engine -/

/-- `[:blank:]` and `[:cntrl:]` -/
def isBlankOrCntrl (c : Char) : Bool := c = ' ' || c = '\t' || c.toNat < 32 || c.toNat = 127

def flexibleKey : List Char := ['"', 'f', 'l', 'e', 'x', 'i', 'b', 'l', 'e', '"']

/-- `^[[:blank:][:cntrl:]]*\\{[[:blank:][:cntrl:]]*\"flexible\"`, with what is behind it -/
def flexiblePattern : List (Item Char) :=
  .many isBlankOrCntrl :: (literal ['{'] ++
    .many isBlankOrCntrl :: (literal flexibleKey ++ [.many fun _ ↦ true]))

def ruleEngine (body : String) : String :=
  if (matchItems flexiblePattern (cStr body).toList).isSome then "fty-alert-flexible"
  else "fty-alert-engine"

/-! ## A rule that is added -/

/-- Check command. Can be OK or ERROR. -/
def readRuleReply (refused : String → Ended) (frames : List String) : Except Ended String := do
  let (command, parts) ← popCommand frames
  if command = "OK" then
    let (json, _) ← popPart parts
    return json
  else if command = "ERROR" then
    let (reason, _) ← popPart parts
    throw (refused reason)
  else throw badMessage

def ruleRefused (name reason : String) : Ended :=
  if reason = "NOT_FOUND" then .died ⟨"not-found", ["Rule name '" ++ cStr name ++ "'"]⟩
  else if reason = "BAD_LUA" then
    .died ⟨"bad-request-document", ["Request document has lua syntax error."]⟩
  else if reason = "BAD_JSON" ∨ reason = "RULE_HAS_ERRORS" then
    .died ⟨"bad-request-document",
      ["Please check RFC-11 for valid rule json schema description."]⟩
  else if reason = "ALREADY_EXISTS" then
    .died ⟨"parameter-conflict", ["Rule with such name (new rule name) already exists"]⟩
  else
    .died (internalError ("Error while retrieving details of rule name = '" ++ cStr name ++ "': " ++
      reason ++ "."))

section

variable (env : RulesEnv) (request : RuleRequest)

/-- The name of a rule that is added is not checked. -/
def checkRuleName : Except HttpDie Unit :=
  if request.method = "PUT" then env.checkAlertRuleName request.name else .ok ()

def checkRule : Except Ended Unit := do
  env.checkUserPermissions.mapError .died
  require (request.method = "POST" ∨ request.method = "PUT")
    (.died ⟨"method-not-allowed", [request.method]⟩)
  (checkRuleName env request).mapError .died
  require (request.method = "PUT" → request.name ≠ "")
    (.died ⟨"request-param-bad", ["name", "empty value", "non-empty value"]⟩)
  require (request.method = "POST" → request.name = "") .declined

/-- The frames of the message that is sent. -/
def RuleRequest.frames : List String :=
  ["ADD", cStr request.body] ++ if request.method = "PUT" then [cStr request.name] else []

/-- Up to the message that is sent; to connect is tried twice. -/
def prepareRule : Except Ended Unit := do
  checkRule env request
  prepare env.mlm " " [1000, 2000]

def alertRules : Except Ended String := do
  prepareRule env request
  let frames ← exchange env.mlm " " (ruleEngine request.body) rfcEvaluatorRules true
  readRuleReply (ruleRefused request.name) (frames.map cStr)

end

/-! ## Where a rule goes -/

/-- A body that begins with a brace and the key `flexible`. -/
theorem ruleEngine_flexible {body : String} : ruleEngine body = "fty-alert-flexible" ↔
    ∃ blanks blanks' rest, (cStr body).toList = blanks ++ '{' :: (blanks' ++ (flexibleKey ++ rest)) ∧
      (∀ c ∈ blanks, isBlankOrCntrl c = true) ∧ ∀ c ∈ blanks', isBlankOrCntrl c = true := by
  have hengine : ruleEngine body = "fty-alert-flexible" ↔
      Accepts flexiblePattern (cStr body).toList := by
    unfold ruleEngine Accepts
    split
    · rename_i h
      exact iff_of_true rfl h
    · rename_i h
      exact iff_of_false (by decide) h
  rw [hengine]
  unfold flexiblePattern
  simp only [accepts_many, accepts_literal]
  constructor
  · rintro ⟨blanks, _, htext, hblanks, _, rfl, blanks', _, rfl, hblanks', rest, rfl, -⟩
    exact ⟨blanks, blanks', rest, htext, hblanks, hblanks'⟩
  · rintro ⟨blanks, blanks', rest, htext, hblanks, hblanks'⟩
    exact ⟨blanks, _, htext, hblanks, _, rfl, blanks', _, rfl, hblanks', rest, rfl, rest, [],
      (List.append_nil rest).symm, fun _ _ ↦ trivial, accepts_nil.mpr rfl⟩

theorem readRuleReply_eq_ok {refused : String → Ended} {frames : List String} {json : String} :
    readRuleReply refused frames = .ok json ↔ ["OK", json] <+: frames := by
  unfold readRuleReply
  simp only [bind_eq_ok, Prod.exists, popCommand_eq_ok]
  constructor
  · rintro ⟨command, parts, rfl, h⟩
    by_cases hok : command = "OK"
    · rw [if_pos hok] at h
      simp only [bind_eq_ok, Prod.exists, popPart_eq_ok, pure_eq_ok] at h
      obtain ⟨_, rest, rfl, rfl⟩ := h
      rw [hok]
      exact ⟨rest, rfl⟩
    · rw [if_neg hok] at h
      split at h
      · simp at h
      · cases h
  · rintro ⟨rest, rfl⟩
    refine ⟨"OK", json :: rest, rfl, ?_⟩
    rw [if_pos rfl]
    simp only [bind_eq_ok, Prod.exists, popPart_eq_ok, pure_eq_ok]
    exact ⟨_, _, rfl, rfl⟩

theorem prepareRule_method {env : RulesEnv} {request : RuleRequest} {u : Unit}
    (h : prepareRule env request = .ok u) :
    request.method = "POST" ∧ request.name = "" ∨ request.method = "PUT" ∧ request.name ≠ "" := by
  unfold prepareRule checkRule at h
  simp only [bind_eq_ok, require_eq_ok] at h
  obtain ⟨_, ⟨_, -, _, hmethod, _, -, _, hput, hpost⟩, -⟩ := h
  rcases hmethod with hmethod | hmethod
  · exact Or.inl ⟨hmethod, hpost hmethod⟩
  · exact Or.inr ⟨hmethod, hput hmethod⟩

/-- What a request sends, and to which engine. -/
def sentRule (env : RulesEnv) (request : RuleRequest) : Option (String × List String) :=
  match prepareRule env request with
  | .ok _ => some (rfcEvaluatorRules, request.frames)
  | .error _ => none

section

variable {ι : Type*} [DecidableEq ι] {answers : String × List String → Message → Prop}
  {net : Net ι (String × List String) Message}

/-- A rule is accepted by the engine that its body is for: the document of the answer is what this
engine says to this request, whatever other requests there are, and whatever the other engine
sends.  The engine for flexible rules gets the bodies that begin with a brace and the key
`flexible`. -/
theorem alertRules_accepted {env : RulesEnv} {request : RuleRequest}
    (hanswers : ∀ sent m, answers sent m → cStr m.sender = ruleEngine request.body)
    (hnet : Relation.ReflTransGen
      (Step (fun m : Message ↦ cStr m.sender = ruleEngine request.body) answers) {} net)
    {c : ι} (hsent : net.sent c = sentRule env request)
    (hwakes : messages env.mlm.wakes = net.received c) {json : String}
    (hjson : alertRules env request = .ok json) :
    (∃ m ∈ net.received c, answers (rfcEvaluatorRules, request.frames) m ∧
      cStr m.subject = rfcEvaluatorRules ∧ ["OK", json] <+: m.frames.map cStr) ∧
    (net.delivered c).countP (fun m ↦ cStr m.sender = ruleEngine request.body) = 1 ∧
    (request.method = "POST" ∧ request.name = "" ∨ request.method = "PUT" ∧ request.name ≠ "") ∧
    (ruleEngine request.body = "fty-alert-flexible" ↔ ∃ blanks blanks' rest,
      (cStr request.body).toList = blanks ++ '{' :: (blanks' ++ (flexibleKey ++ rest)) ∧
        (∀ c ∈ blanks, isBlankOrCntrl c = true) ∧ ∀ c ∈ blanks', isBlankOrCntrl c = true) := by
  unfold alertRules at hjson
  simp only [bind_eq_ok, readRuleReply_eq_ok] at hjson
  obtain ⟨_, hprepare, frames, hframes, hprefix⟩ := hjson
  have hrule : sentRule env request = some (rfcEvaluatorRules, request.frames) := by
    unfold sentRule
    rw [hprepare]
  obtain ⟨⟨m, hmem, hanswer, hsubject, rfl⟩, honce⟩ :=
    exchange_answered hanswers hnet hwakes (hsent.trans hrule) hframes
  exact ⟨⟨m, hmem, hanswer, hsubject, hprefix⟩, honce, prepareRule_method hprepare,
    ruleEngine_flexible⟩

end

/-- A request that receives what the other engine sends before its reply. -/
def flexibleEnv : RulesEnv where
  checkUserPermissions := .ok ()
  checkAlertRuleName _ := .ok ()
  mlm :=
    { agentFtyAlertList := "fty-alert-list"
      clientNew := true
      connect := fun timeout ↦ timeout = 2000
      zmsgNew := true
      sendto := true
      msgpipe := true
      pollerNew := true
      wakes := [.readable (some ⟨"fty-alert-engine", rfcEvaluatorRules, ["ERROR", "BAD_JSON"]⟩),
        .readable (some ⟨"fty-alert-flexible", rfcEvaluatorRules, ["OK", "document"]⟩)] }

def flexibleRequest : RuleRequest := ⟨"POST", "", "\n\x7b \"flexible\" : 1 \x7d"⟩

theorem alertRules_accepted_flexible : ∃ net : Net Bool (String × List String) Message,
    net.received true = [⟨"fty-alert-engine", rfcEvaluatorRules, ["ERROR", "BAD_JSON"]⟩,
      ⟨"fty-alert-flexible", rfcEvaluatorRules, ["OK", "document"]⟩] ∧
    (net.delivered true).countP
      (fun m ↦ cStr m.sender = ruleEngine flexibleRequest.body) = 1 := by
  let reply : Message := ⟨"fty-alert-flexible", rfcEvaluatorRules, ["OK", "document"]⟩
  let answers : String × List String → Message → Prop := fun _ m ↦ m = reply
  have hflexible : ∀ sent m, answers sent m →
      cStr m.sender = ruleEngine flexibleRequest.body := by
    rintro _ m rfl
    decide +kernel
  have hsent : sentRule flexibleEnv flexibleRequest =
      some (rfcEvaluatorRules, flexibleRequest.frames) := by decide +kernel
  have hstart : Relation.ReflTransGen
      (Step (fun m : Message ↦ cStr m.sender = ruleEngine flexibleRequest.body) answers)
      ({} : Net Bool (String × List String) Message) {} := .refl
  have hother := (hstart.tail (.send true (rfcEvaluatorRules, flexibleRequest.frames) rfl)).tail
    (.foreign true ⟨"fty-alert-engine", rfcEvaluatorRules, ["ERROR", "BAD_JSON"]⟩
      (by decide +kernel))
  have hanswered := hother.tail (.answer true _ reply [] [] rfl rfl)
  have hrun := (hanswered.tail (.receive true _ _ rfl)).tail (.receive true _ _ rfl)
  refine ⟨_, ?_, (@alertRules_accepted Bool _ _ _ flexibleEnv flexibleRequest hflexible hrun true
    hsent.symm rfl "document" ?_).2.1⟩
  · rfl
  · decide +kernel

end FtyRest.Ecpp
