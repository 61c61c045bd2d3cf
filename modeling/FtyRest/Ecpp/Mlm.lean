import FtyRest.Ecpp.Config
import FtyRest.Lib.Checks
import FtyRest.Lib.Mailbox

/-!
# Requests to the agents

What `alert_ack.ecpp`, `alert_list.ecpp`, `alert_rules.ecpp`, `alert_rules_detail.ecpp` and
`alert_rules_list.ecpp` have in common: a message is sent to an agent over malamute, and its reply
is waited for.
-/

namespace FtyRest.Ecpp

open Checks Mailbox

/-- A message that is received, with the bytes of its frames. -/
structure Message where
  sender : String
  subject : String
  frames : List String
deriving DecidableEq, Repr

/-- How a request ends that is not answered with 200, or has not been answered yet. -/
inductive Ended where
  | died (reason : HttpDie)
  | waiting
  /-- a frame is read that is not there -/
  | crashed
  /-- an exception that is not caught -/
  | thrown
  /-- left to another page -/
  | declined
deriving DecidableEq, Repr

/-- What becomes of the calls. -/
structure Mlm where
  /-- `AGENT_FTY_ALERT_LIST` -/
  agentFtyAlertList : String
  clientNew : Bool
  /-- `mlm_client_connect` with its timeout -/
  connect : Nat → Bool
  zmsgNew : Bool
  sendto : Bool
  msgpipe : Bool
  pollerNew : Bool
  /-- what `zpoller_wait` and `mlm_client_recv` come back with, one time after the other -/
  wakes : List (Wake Message)

def timedOut : Ended := .died (internalError "Timed out waiting for message.")

def badMessage : Ended := .died (internalError "Bad message.")

section

-- the texts of the sources differ in a blank behind the names of the calls
variable (mlm : Mlm) (blank : String)

def callFailed (call : String) : Ended := .died (internalError (call ++ blank ++ "() failed."))

/-- Up to the message that is sent. -/
def prepare (timeouts : List Nat) : Except Ended Unit := do
  require (mlm.clientNew = true) (callFailed blank "mlm_client_new")
  require (timeouts.any mlm.connect = true) (callFailed blank "mlm_client_connect")
  require (mlm.zmsgNew = true) (callFailed blank "zmsg_new")

/-- wait for the right message or time-out; `quit` tells whether `zpoller_terminated` counts as a
timeout. -/
def receive (agent : String) (quit : Bool) : Except Ended Message :=
  match await (fun m : Message ↦ cStr m.sender = agent) quit none mlm.wakes with
  | .reply m => .ok m
  | .timedOut => .error timedOut
  | .failed => .error (callFailed blank "mlm_client_recv")
  | .waiting => .error .waiting

/-- From the message that is sent to the reply, whose frames come back. -/
def exchange (agent subject : String) (quit : Bool) : Except Ended (List String) := do
  require (mlm.sendto = true) (callFailed blank "mlm_client_sendto")
  require (mlm.pollerNew = true) (callFailed blank "zpoller_new")
  let m ← receive mlm blank agent quit
  require (cStr m.subject = subject) badMessage
  return m.frames

end

/-- The command of a reply. -/
def popCommand : List String → Except Ended (String × List String)
  | [] => .error .crashed
  | part :: parts => .ok (part, parts)

/-- A part that has to be there. -/
def popPart : List String → Except Ended (String × List String)
  | [] => .error badMessage
  | part :: parts => .ok (part, parts)

section

variable {frames parts : List String} {part : String}

theorem popCommand_eq_ok : popCommand frames = .ok (part, parts) ↔ frames = part :: parts := by
  cases frames <;> simp [popCommand]

theorem popPart_eq_ok : popPart frames = .ok (part, parts) ↔ frames = part :: parts := by
  cases frames <;> simp [popPart]

end

/-! ## How long a request waits -/

/-- The poll that ends the waiting, once something has been received. -/
def Mlm.settling (mlm : Mlm) (agent : String) : Option (Wake Message) :=
  mlm.wakes.find? (Mailbox.settling fun m : Message ↦ cStr m.sender = agent)

/-- The reply is the first message of the agent, whatever other messages and timeouts are before it.
Only the first poll can time out: behind a message of another sender the request waits until the
agent sends one. -/
structure WaitLaw (mlm : Mlm) (blank agent : String) (quit : Bool) : Prop where
  replied : ∀ m, receive mlm blank agent quit = .ok m ↔
    received mlm.wakes = true ∧ mlm.settling agent = some (.readable (some m))
  timedOut : receive mlm blank agent quit = .error timedOut ↔
    mlm.wakes.head? = some .expired ∨ quit = true ∧ mlm.wakes.head? = some .terminated
  waiting : receive mlm blank agent quit = .error .waiting ↔
    mlm.wakes = [] ∨ received mlm.wakes = true ∧ mlm.settling agent = none

section

variable {mlm : Mlm} {blank agent : String} {quit : Bool}

theorem callFailed_ne_timedOut : callFailed blank "mlm_client_recv" ≠ timedOut := by
  intro h
  unfold callFailed timedOut internalError at h
  rw [Ended.died.injEq, HttpDie.mk.injEq, List.cons.injEq] at h
  have hhead := congrArg (fun s : String ↦ s.toList.head?) h.2.1
  simp at hhead

theorem receive_eq_ok {m : Message} : receive mlm blank agent quit = .ok m ↔
    await (fun m : Message ↦ cStr m.sender = agent) quit none mlm.wakes = .reply m := by
  unfold receive
  split <;> simp_all

theorem receive_eq_timedOut : receive mlm blank agent quit = .error timedOut ↔
    await (fun m : Message ↦ cStr m.sender = agent) quit none mlm.wakes = .timedOut := by
  have hrecv : callFailed blank "mlm_client_recv" ≠ FtyRest.Ecpp.timedOut := callFailed_ne_timedOut
  unfold receive
  split
  · simp_all
  · simp_all
  · simp_all
  · rename_i hawait
    rw [hawait]
    simp [FtyRest.Ecpp.timedOut]

theorem receive_eq_waiting : receive mlm blank agent quit = .error .waiting ↔
    await (fun m : Message ↦ cStr m.sender = agent) quit none mlm.wakes = .waiting := by
  unfold receive
  split
  · simp_all
  · simp_all [FtyRest.Ecpp.timedOut]
  · simp_all [callFailed]
  · simp_all

theorem exchange_eq_ok {subject : String} {frames : List String} :
    exchange mlm blank agent subject quit = .ok frames ↔
      mlm.sendto = true ∧ mlm.pollerNew = true ∧ ∃ m, receive mlm blank agent quit = .ok m ∧
        cStr m.subject = subject ∧ m.frames = frames := by
  unfold exchange
  simp only [bind_eq_ok, require_eq_ok, pure_eq_ok, exists_and_left, exists_const]

theorem receive_waitLaw (mlm : Mlm) (blank agent : String) (quit : Bool) :
    WaitLaw mlm blank agent quit where
  replied _ := receive_eq_ok.trans await_eq_reply
  timedOut := receive_eq_timedOut.trans await_eq_timedOut
  waiting := by
    rw [receive_eq_waiting]
    exact await_eq_waiting

end

/-! ## Other requests -/

section

variable {ι : Type*} [DecidableEq ι] {agent : String}
  {answers : String × List String → Message → Prop}
  {net : Net ι (String × List String) Message}

/-- The reply that a request takes is the answer of the agent to the message that this request has
sent, and the only message that the agent sends it. -/
theorem exchange_answered (hanswers : ∀ sent m, answers sent m → cStr m.sender = agent)
    (hnet : Relation.ReflTransGen (Step (fun m : Message ↦ cStr m.sender = agent) answers) {} net)
    {c : ι} {mlm : Mlm} (hwakes : messages mlm.wakes = net.received c)
    {sent : String × List String} (hsent : net.sent c = some sent)
    {blank subject : String} {quit : Bool} {frames : List String}
    (h : exchange mlm blank agent subject quit = .ok frames) :
    (∃ m ∈ net.received c, answers sent m ∧ cStr m.subject = subject ∧ m.frames = frames) ∧
      (net.delivered c).countP (fun m ↦ cStr m.sender = agent) = 1 := by
  obtain ⟨-, -, m, hreceive, hsubject, hframes⟩ := exchange_eq_ok.mp h
  have hfrom : ∀ sent m, answers sent m → decide (cStr m.sender = agent) = true :=
    fun sent m h ↦ decide_eq_true (hanswers sent m h)
  obtain ⟨hmem, ⟨sent', hsent', hanswer⟩, honce⟩ :=
    reply_answers hfrom hnet hwakes (receive_eq_ok.mp hreceive)
  rw [hsent] at hsent'
  cases hsent'
  exact ⟨⟨m, hmem, hanswer, hsubject, hframes⟩, honce⟩

end

end FtyRest.Ecpp
