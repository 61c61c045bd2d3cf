import FtyRest.Ecpp.Mlm
import FtyRest.Lib.EventStream
import FtyRest.Web.SseSilence

/-!
# A session

The loop of `admin_sse.ecpp`: turn by turn a session looks at its token, tells the client how long
the token is good for, and sends what becomes of the message that came in.
-/

namespace FtyRest.Web

open History
open Ecpp (cStr)

/-- A message by its kind; `otherProto` are those that cannot be decoded, too. -/
inductive Body where
  | alert (env : Env) (msg : AlertMsg)
  | asset (input : AssetInput)
  | otherProto
  | generic (frames : List String)

/-- What a poll of ten seconds comes back with. -/
inductive Poll where
  | expired
  | terminated
  | nothing
  | message (command subject : String) (body : Body)

/-- What a turn of the loop finds. -/
structure Turn where
  shouldStop : Bool
  now : Int
  /-- `checkTokenValidity` -/
  tme : Int
  /-- whether the client gets the time of the token -/
  expFlush : Bool
  poll : Poll
  /-- whether the client gets what is sent after that -/
  flush : Bool

/-- Why a session ends. -/
inductive Stop where
  | time
  | shutdown
  | token
  | flush
  | terminated
deriving DecidableEq, Repr

/-- What is sent to the client. -/
inductive Sent where
  | exptime (tme : Int)
  | heartbeat
  | event (event : Event)
  | generic (topic jsonPayload : String)
deriving DecidableEq, Repr

def Sent.text : Sent → String
  | .exptime tme =>
      "data:\x7b\"topic\":\"session\",\"payload\":\x7b\"exptime\":" ++ toString tme ++ "\x7d\x7d\n\n"
  | .heartbeat => "data:\x7b\"topic\":\"heartbeat\",\"payload\":\x7b\x7d\x7d\n\n"
  | .event e => e.text
  | .generic topic jsonPayload =>
      "data:\x7b\"topic\":\"" ++ topic ++ "\",\"payload\":" ++ jsonPayload ++ "\x7d\n\n"

/-- `maxRequestTime * 1000 / 2`, which is unsigned -/
def tntRequestTimeout (maxRequestTime : Nat) : Nat := maxRequestTime * 1000 % 2 ^ 32 / 2

structure Session where
  sse : Sse
  start : Int
  sendNextExpTime : Int := 0
  diff : Int := 0

/-- `Sse::changeSseMessage2Json`: the frames are a topic, a payload, and maybe an asset. -/
def changeSseMessage2Json (s : Sse) (frames : List String) : Option Sent :=
  let assetID := cStr (frames.getD 2 "")
  if assetID ≠ "" ∧ assetID ∉ s.assetsOfDatacenter then none
  else some (.generic (cStr (frames.getD 0 "")) (cStr (frames.getD 1 "")))

def handleMessage (s : Sse) (command subject : String) (body : Body) : Sse × Option Sent :=
  if command = "STREAM DELIVER" then
    match body with
    | .alert env msg =>
        let (s, event) := changeFtyProtoAlert2Json env s msg
        (s, event.map .event)
    | .asset input =>
        let (s, event) := changeFtyProtoAsset2Json input.env s input.asset
        (s, event.map .event)
    | .otherProto => (s, none)
    | .generic frames => (s, if subject = "SSE" then changeSseMessage2Json s frames else none)
  else (s, none)

/-- `flush ().fail ()` -/
def flushed (good : Bool) (st : Session) : Except Stop Session :=
  if good then .ok st else .error .flush

/-- The end of a turn, from the poll on. -/
def handlePoll (st : Session) (t : Turn) : List Sent × Except Stop Session :=
  match t.poll with
  | .expired => ([.heartbeat], flushed t.flush st)
  | .terminated => ([], .error .terminated)
  | .nothing => ([], .ok st)
  | .message command subject body =>
      let (sse, json) := handleMessage st.sse command subject body
      match json with
      | none => ([], .ok { st with sse := sse })
      | some json => ([json], flushed t.flush { st with sse := sse })

/-- The time before expiration, once a minute. -/
def handleExpTime (st : Session) (t : Turn) : List Sent × Except Stop Session :=
  if t.now - st.sendNextExpTime > 60000 then
    ([.exptime t.tme], flushed t.expFlush { st with sendNextExpTime := t.now })
  else ([], .ok st)

def turn (timeout : Nat) (st : Session) (t : Turn) : List Sent × Except Stop Session :=
  if ¬ st.diff < timeout then ([], .error .time)
  else if t.shouldStop then ([], .error .shutdown)
  else if t.tme = -1 then ([], .error .token)
  else
    match handleExpTime { st with diff := t.now - st.start } t with
    | (sent, .error stop) => (sent, .error stop)
    | (sent, .ok st) => (sent ++ (handlePoll st t).1, (handlePoll st t).2)

/-- The turns, with the time of what is sent. -/
def run (timeout : Nat) : Session → List Turn → List (Int × Sent) × Except Stop Session
  | st, [] => ([], .ok st)
  | st, t :: turns =>
      match turn timeout st t with
      | (sent, .error stop) => (sent.map (t.now, ·), .error stop)
      | (sent, .ok st) =>
          (sent.map (t.now, ·) ++ (run timeout st turns).1, (run timeout st turns).2)

/-! ## The messages of a session -/

/-- A message of the streams that a session listens to. -/
inductive StreamMessage where
  | proto (input : SessionInput)
  /-- on the stream `SSE`: a topic, a payload, and the asset that they are about, or no name -/
  | sse (topic payload asset : String)

/-- What a session makes of a message: a message of the stream `SSE` is passed on as it is, unless
it is about an asset that is not in the datacenter. -/
def streamStep (s : Sse) : StreamMessage → Sse × Option Sent
  | .proto input => ((sessionStep s input).1, (sessionStep s input).2.map .event)
  | .sse topic payload asset =>
      (s, if asset = "" ∨ asset ∈ s.assetsOfDatacenter then some (.generic topic payload) else none)

/-- The message of the streams that has been received. -/
def streamMessage (subject : String) : Body → Option StreamMessage
  | .alert env msg => some (.proto (.alert env msg))
  | .asset input => some (.proto (.asset input))
  | .otherProto => none
  | .generic frames =>
      if subject = "SSE" then
        some (.sse (cStr (frames.getD 0 "")) (cStr (frames.getD 1 "")) (cStr (frames.getD 2 "")))
      else none

def delivered (t : Turn) : Option StreamMessage :=
  match t.poll with
  | .message command subject body =>
      if command = "STREAM DELIVER" then streamMessage subject body else none
  | .expired | .terminated | .nothing => none

/-- What a session sends by itself: the time of the token, and heartbeats. -/
def Sent.isOwn : Sent → Bool
  | .exptime _ | .heartbeat => true
  | .event _ | .generic _ _ => false

/-- What is sent because of messages. -/
def passedOn (sent : List Sent) : List Sent := sent.filter fun x ↦ !x.isOwn

/-- When the client is told the time of its token. -/
def exptimesOf (sent : List (Int × Sent)) : List Int :=
  sent.filterMap fun x ↦
    match x.2 with
    | .exptime _ => some x.1
    | .heartbeat | .event _ | .generic _ _ => none

/-- What some messages lead to. -/
def streamSent (s : Sse) (messages : List StreamMessage) : List Sent :=
  (answers streamStep s messages).filterMap id

section

variable {timeout : Nat} {st st' : Session} {t : Turn} {turns : List Turn} {sent : List Sent}
  {stop : Stop}

theorem flushed_eq_ok {good : Bool} : flushed good st = .ok st' ↔ good = true ∧ st = st' := by
  unfold flushed
  cases good with
  | true => simp
  | false => simp

theorem flushed_eq_error {good : Bool} :
    flushed good st = .error stop ↔ good = false ∧ stop = .flush := by
  unfold flushed
  cases good with
  | true => simp
  | false => simp [eq_comm]

theorem passedOn_append (a b : List Sent) : passedOn (a ++ b) = passedOn a ++ passedOn b :=
  List.filter_append a b

theorem streamSent_append (s : Sse) (messages more : List StreamMessage) :
    streamSent s (messages ++ more) =
      streamSent s messages ++ streamSent (final streamStep s messages) more := by
  unfold streamSent
  induction messages generalizing s with
  | nil => rfl
  | cons x messages ih =>
    have hrest := ih (streamStep s x).1
    rw [List.cons_append, answers, answers, List.filterMap_cons, List.filterMap_cons, hrest]
    cases (streamStep s x).2 <;> rfl

theorem streamSent_toList (s : Sse) (message : Option StreamMessage) :
    streamSent s message.toList = (message.bind fun m ↦ (streamStep s m).2).toList := by
  cases message with
  | none => rfl
  | some m =>
    show [(streamStep s m).2].filterMap id = (streamStep s m).2.toList
    cases (streamStep s m).2 <;> rfl

theorem passedOn_map_event (event : Option Event) :
    passedOn (event.map Sent.event).toList = (event.map Sent.event).toList := by
  cases event <;> rfl

theorem changeSseMessage2Json_eq (s : Sse) (frames : List String) :
    changeSseMessage2Json s frames = (streamStep s (.sse (cStr (frames.getD 0 ""))
      (cStr (frames.getD 1 "")) (cStr (frames.getD 2 "")))).2 := by
  unfold changeSseMessage2Json streamStep
  dsimp only
  split_ifs <;> grind

theorem passedOn_sse (s : Sse) (topic payload asset : String) :
    passedOn (streamStep s (.sse topic payload asset)).2.toList =
      (streamStep s (.sse topic payload asset)).2.toList := by
  unfold streamStep
  dsimp only
  split
  · rfl
  · rfl

/-- A message has the effect that it has in a session, and no other one. -/
theorem handleMessage_eq (s : Sse) (command subject : String) (body : Body) :
    (handleMessage s command subject body).1 = final streamStep s
        (if command = "STREAM DELIVER" then streamMessage subject body else none).toList ∧
      passedOn (handleMessage s command subject body).2.toList = streamSent s
        (if command = "STREAM DELIVER" then streamMessage subject body else none).toList := by
  rw [streamSent_toList]
  unfold handleMessage
  by_cases hcommand : command = "STREAM DELIVER"
  · rw [if_pos hcommand, if_pos hcommand]
    cases body with
    | alert env msg => exact ⟨rfl, passedOn_map_event _⟩
    | asset input => exact ⟨rfl, passedOn_map_event _⟩
    | otherProto => exact ⟨rfl, rfl⟩
    | generic frames =>
      unfold streamMessage
      dsimp only
      by_cases hsubject : subject = "SSE"
      · rw [if_pos hsubject, if_pos hsubject, changeSseMessage2Json_eq]
        exact ⟨rfl, passedOn_sse _ _ _ _⟩
      · rw [if_neg hsubject, if_neg hsubject]
        exact ⟨rfl, rfl⟩
  · rw [if_neg hcommand, if_neg hcommand]
    exact ⟨rfl, rfl⟩

theorem handlePoll_eq (st : Session) (t : Turn) :
    passedOn (handlePoll st t).1 = streamSent st.sse (delivered t).toList ∧
      ∀ st', (handlePoll st t).2 = .ok st' →
        st'.sse = final streamStep st.sse (delivered t).toList := by
  unfold handlePoll delivered
  cases t.poll with
  | message command subject body =>
    obtain ⟨hsse, hevents⟩ := handleMessage_eq st.sse command subject body
    dsimp only
    cases hjson : (handleMessage st.sse command subject body).2 with
    | none =>
      rw [hjson] at hevents
      exact ⟨hevents, fun st' h ↦ by cases h; exact hsse⟩
    | some json =>
      rw [hjson] at hevents
      refine ⟨hevents, fun st' h ↦ ?_⟩
      obtain ⟨-, rfl⟩ := flushed_eq_ok.mp h
      exact hsse
  | expired =>
    refine ⟨rfl, fun st' h ↦ ?_⟩
    obtain ⟨-, rfl⟩ := flushed_eq_ok.mp h
    rfl
  | terminated => exact ⟨rfl, nofun⟩
  | nothing => exact ⟨rfl, fun st' h ↦ by cases h; rfl⟩

theorem turn_over (h : ¬ st.diff < timeout ∨ t.shouldStop = true ∨ t.tme = -1) :
    (turn timeout st t).1 = [] ∧ ∃ stop, (turn timeout st t).2 = .error stop := by
  unfold turn
  split
  · exact ⟨rfl, _, rfl⟩
  · split
    · exact ⟨rfl, _, rfl⟩
    · split
      · exact ⟨rfl, _, rfl⟩
      · rename_i hdiff hstop htoken
        rcases h with h | h | h
        · exact absurd h hdiff
        · exact absurd h hstop
        · exact absurd h htoken

/-- The session as it is after the time of the token has been sent, or need not be. -/
def timed (st : Session) (t : Turn) : Session :=
  { st with
    diff := t.now - st.start
    sendNextExpTime := if t.now - st.sendNextExpTime > 60000 then t.now else st.sendNextExpTime }

def exptimes (st : Session) (t : Turn) : List Sent :=
  if t.now - st.sendNextExpTime > 60000 then [.exptime t.tme] else []

/-- A turn is over at once, or the client is gone when it is told the time of its token, or the
message is handled. -/
theorem turn_cases (timeout : Nat) (st : Session) (t : Turn) :
    (¬ st.diff < timeout ∨ t.shouldStop = true ∨ t.tme = -1) ∨
    (st.diff < timeout ∧ t.shouldStop = false ∧ t.tme ≠ -1) ∧
      (turn timeout st t = ([.exptime t.tme], .error .flush) ∧
          t.now - st.sendNextExpTime > 60000 ∨
        turn timeout st t =
          (exptimes st t ++ (handlePoll (timed st t) t).1, (handlePoll (timed st t) t).2)) := by
  by_cases hover : ¬ st.diff < timeout ∨ t.shouldStop = true ∨ t.tme = -1
  · exact .inl hover
  · push Not at hover
    refine .inr ⟨⟨hover.1, Bool.eq_false_iff.mpr hover.2.1, hover.2.2⟩, ?_⟩
    obtain ⟨hdiff, hstop, htoken⟩ := hover
    have hturn : turn timeout st t =
        match handleExpTime { st with diff := t.now - st.start } t with
        | (sent, .error stop) => (sent, .error stop)
        | (sent, .ok st) => (sent ++ (handlePoll st t).1, (handlePoll st t).2) := by
      unfold turn
      rw [if_neg (not_not.mpr hdiff), if_neg hstop, if_neg htoken]
    rw [hturn]
    unfold handleExpTime exptimes timed
    dsimp only
    by_cases hminute : t.now - st.sendNextExpTime > 60000
    · rw [if_pos hminute, if_pos hminute, if_pos hminute]
      -- the client may be gone when it is told the time of its token
      cases hflush : t.expFlush with
      | true => exact .inr rfl
      | false => exact .inl ⟨rfl, hminute⟩
    · rw [if_neg hminute, if_neg hminute, if_neg hminute]
      exact .inr rfl

theorem handlePoll_ok (h : (handlePoll st t).2 = .ok st') :
    st'.start = st.start ∧ st'.diff = st.diff ∧ st'.sendNextExpTime = st.sendNextExpTime := by
  unfold handlePoll at h
  split at h
  · obtain ⟨-, rfl⟩ := flushed_eq_ok.mp h
    exact ⟨rfl, rfl, rfl⟩
  · cases h
  · cases h
    exact ⟨rfl, rfl, rfl⟩
  · dsimp only at h
    split at h
    · cases h
      exact ⟨rfl, rfl, rfl⟩
    · obtain ⟨-, rfl⟩ := flushed_eq_ok.mp h
      exact ⟨rfl, rfl, rfl⟩

theorem passedOn_exptimes : passedOn (exptimes st t) = [] := by
  unfold exptimes
  split
  · rfl
  · rfl

/-- A turn after which the session goes on. -/
theorem turn_ok (h : (turn timeout st t).2 = .ok st') :
    (st.diff < timeout ∧ t.shouldStop = false ∧ t.tme ≠ -1) ∧
      (st'.start = st.start ∧ st'.diff = t.now - st.start ∧
        st'.sendNextExpTime = (timed st t).sendNextExpTime) ∧
      passedOn (turn timeout st t).1 = streamSent st.sse (delivered t).toList ∧
      st'.sse = final streamStep st.sse (delivered t).toList := by
  rcases turn_cases timeout st t with hover | ⟨hvalid, ⟨hflush, -⟩ | hturn⟩
  · obtain ⟨-, stop, hstop⟩ := turn_over hover
    rw [hstop] at h
    cases h
  · rw [hflush] at h
    cases h
  · rw [hturn] at h ⊢
    obtain ⟨hevents, hsse⟩ := handlePoll_eq (timed st t) t
    refine ⟨hvalid, handlePoll_ok h, ?_, hsse st' h⟩
    rw [passedOn_append, passedOn_exptimes, hevents]
    rfl

/-- A turn that ends the session has handled its message if the client is gone, and maybe not
even then. -/
theorem turn_error (h : (turn timeout st t).2 = .error stop) :
    passedOn (turn timeout st t).1 = [] ∨
      stop = .flush ∧
        passedOn (turn timeout st t).1 = streamSent st.sse (delivered t).toList := by
  -- the session is over, or the client is gone when it is told the time, or the poll decides
  rcases turn_cases timeout st t with hover | ⟨hvalid, ⟨hflush, -⟩ | hturn⟩
  · left
    rw [(turn_over hover).1]
    rfl
  · left
    rw [hflush]
    rfl
  · rw [hturn] at h ⊢
    obtain ⟨hevents, -⟩ := handlePoll_eq (timed st t) t
    rw [passedOn_append, passedOn_exptimes, hevents]
    -- without a message there is nothing to be sent or lost
    cases hpoll : t.poll with
    | terminated =>
      left
      unfold delivered
      rw [hpoll]
      rfl
    | nothing =>
      left
      unfold delivered
      rw [hpoll]
      rfl
    | expired =>
      left
      unfold delivered
      rw [hpoll]
      rfl
    | message command subject body =>
      right
      refine ⟨?_, rfl⟩
      unfold handlePoll at h
      rw [hpoll] at h
      dsimp only at h
      split at h
      · cases h
      · exact (flushed_eq_error.mp h).2

/-! ## Runs -/

theorem run_cons_ok (h : (turn timeout st t).2 = .ok st') :
    run timeout st (t :: turns) =
      ((turn timeout st t).1.map (t.now, ·) ++ (run timeout st' turns).1,
        (run timeout st' turns).2) := by
  have hturn : turn timeout st t = ((turn timeout st t).1, .ok st') := by rw [← h]
  rw [run, hturn]

theorem run_cons_error (h : (turn timeout st t).2 = .error stop) :
    run timeout st (t :: turns) = ((turn timeout st t).1.map (t.now, ·), .error stop) := by
  have hturn : turn timeout st t = ((turn timeout st t).1, .error stop) := by rw [← h]
  rw [run, hturn]

theorem map_snd_at (now : Int) (sent : List Sent) : (sent.map (now, ·)).map Prod.snd = sent := by
  rw [List.map_map]
  exact List.map_id sent

/-- The messages of a session that goes on have all been handled, in their order and once each. -/
theorem run_ok (h : (run timeout st turns).2 = .ok st') :
    passedOn ((run timeout st turns).1.map Prod.snd) =
        streamSent st.sse (turns.filterMap delivered) ∧
      st'.sse = final streamStep st.sse (turns.filterMap delivered) := by
  induction turns generalizing st with
  | nil =>
    cases h
    exact ⟨rfl, rfl⟩
  | cons t turns ih =>
    cases hturn : (turn timeout st t).2 with
    | error stop =>
      rw [run_cons_error hturn] at h
      cases h
    | ok next =>
      rw [run_cons_ok hturn] at h ⊢
      obtain ⟨-, -, hevents, hsse⟩ := turn_ok hturn
      obtain ⟨ihevents, ihsse⟩ := ih h
      -- a turn delivers one message or none
      have hmessages : (t :: turns).filterMap delivered =
          (delivered t).toList ++ turns.filterMap delivered := by
        rw [List.filterMap_cons]
        cases delivered t <;> rfl
      rw [List.map_append, passedOn_append, map_snd_at, hevents, ihevents, hmessages,
        streamSent_append, final_append, ← hsse]
      exact ⟨rfl, ihsse⟩

/-- A session that has ended went on up to some turn. -/
theorem run_error (h : (run timeout st turns).2 = .error stop) :
    ∃ before t after last, turns = before ++ t :: after ∧
      (run timeout st before).2 = .ok last ∧ (turn timeout last t).2 = .error stop ∧
      (run timeout st turns).1 =
        (run timeout st before).1 ++ (turn timeout last t).1.map (t.now, ·) := by
  induction turns generalizing st with
  | nil => cases h
  | cons t turns ih =>
    cases hturn : (turn timeout st t).2 with
    | error stop' =>
      rw [run_cons_error hturn] at h ⊢
      cases h
      exact ⟨[], t, turns, st, rfl, rfl, hturn, rfl⟩
    | ok next =>
      rw [run_cons_ok hturn] at h ⊢
      obtain ⟨before, t', after, last, rfl, hlast, hend, hsent⟩ := ih h
      refine ⟨t :: before, t', after, last, rfl, ?_, hend, ?_⟩
      · rw [run_cons_ok hturn]
        exact hlast
      · rw [run_cons_ok hturn, hsent, List.append_assoc]

/-- The client of a session is sent what the messages of its turns lead to, one after the other.
In the turn that ends the session the message is lost, unless the client is gone. -/
theorem run_events (timeout : Nat) (st : Session) (turns : List Turn) :
    (∀ st', (run timeout st turns).2 = .ok st' →
      passedOn ((run timeout st turns).1.map Prod.snd) =
          streamSent st.sse (turns.filterMap delivered) ∧
        st'.sse = final streamStep st.sse (turns.filterMap delivered)) ∧
    ∀ stop, (run timeout st turns).2 = .error stop →
      ∃ before t after, turns = before ++ t :: after ∧
        (∃ last, (run timeout st before).2 = .ok last) ∧
        (passedOn ((run timeout st turns).1.map Prod.snd) =
            streamSent st.sse (before.filterMap delivered) ∨
          stop = .flush ∧ passedOn ((run timeout st turns).1.map Prod.snd) =
            streamSent st.sse ((before ++ [t]).filterMap delivered)) := by
  refine ⟨fun st' h ↦ run_ok h, fun stop h ↦ ?_⟩
  obtain ⟨before, t, after, last, hturns, hlast, hend, hsent⟩ := run_error h
  obtain ⟨hevents, hsse⟩ := run_ok hlast
  refine ⟨before, t, after, hturns, ⟨last, hlast⟩, ?_⟩
  rw [hsent, List.map_append, passedOn_append, map_snd_at, hevents]
  -- the last turn had sent nothing of its message, or the client was gone while it was sent
  rcases turn_error hend with hnone | ⟨hflush, hsome⟩
  · left
    rw [hnone, List.append_nil]
  · right
    have hmessage : [t].filterMap delivered = (delivered t).toList := by
      rw [List.filterMap_cons]
      cases delivered t <;> rfl
    rw [hsome, hsse, List.filterMap_append, streamSent_append, hmessage]
    exact ⟨hflush, rfl⟩

/-! ## The time of the token -/

theorem exptimesOf_append (a b : List (Int × Sent)) :
    exptimesOf (a ++ b) = exptimesOf a ++ exptimesOf b :=
  List.filterMap_append

/-- A message is no message about the token. -/
theorem handleMessage_ne {s : Sse} {command subject : String} {body : Body} {tme : Int} :
    (handleMessage s command subject body).2 ≠ some (.exptime tme) := by
  unfold handleMessage
  split
  · cases body with
    | alert env msg => simp
    | asset input => simp
    | otherProto => simp
    | generic frames =>
      unfold changeSseMessage2Json
      dsimp only
      split_ifs <;> simp
  · simp

theorem handlePoll_ne {tme : Int} : Sent.exptime tme ∉ (handlePoll st t).1 := by
  unfold handlePoll
  cases t.poll with
  | message command subject body =>
    dsimp only
    cases hjson : (handleMessage st.sse command subject body).2 with
    | none => simp
    | some json =>
      have hne : (handleMessage st.sse command subject body).2 ≠ some (.exptime tme) :=
        handleMessage_ne
      rw [hjson] at hne
      simpa [eq_comm] using hne
  | expired => simp
  | terminated => simp
  | nothing => simp

theorem exptimesOf_handlePoll (now : Int) :
    exptimesOf ((handlePoll st t).1.map (now, ·)) = [] := by
  apply List.filterMap_eq_nil_iff.mpr
  intro x hx
  obtain ⟨sent, hsent, rfl⟩ := List.mem_map.mp hx
  cases sent with
  | exptime tme => exact absurd hsent handlePoll_ne
  | heartbeat => rfl
  | event e => rfl
  | generic topic jsonPayload => rfl

theorem exptimesOf_exptimes :
    exptimesOf ((exptimes st t).map (t.now, ·)) =
      if t.now - st.sendNextExpTime > 60000 then [t.now] else [] := by
  unfold exptimes
  split
  · rfl
  · rfl

/-- A turn tells the client the time of the token if it has not been told for a minute. -/
theorem turn_exptimes (timeout : Nat) (st : Session) (t : Turn) :
    exptimesOf ((turn timeout st t).1.map (t.now, ·)) = [] ∨
      t.now - st.sendNextExpTime > 60000 ∧
        exptimesOf ((turn timeout st t).1.map (t.now, ·)) = [t.now] := by
  rcases turn_cases timeout st t with hover | ⟨-, ⟨hflush, hminute⟩ | hturn⟩
  · left
    rw [(turn_over hover).1]
    rfl
  · right
    rw [hflush]
    exact ⟨hminute, rfl⟩
  · rw [hturn, List.map_append, exptimesOf_append, exptimesOf_handlePoll, exptimesOf_exptimes,
      List.append_nil]
    split
    · exact .inr ⟨‹_›, rfl⟩
    · exact .inl rfl

theorem turn_ok_exptimes (h : (turn timeout st t).2 = .ok st') :
    t.now - st'.sendNextExpTime ≤ 60000 ∧ st.sendNextExpTime ≤ st'.sendNextExpTime ∧
      (exptimesOf ((turn timeout st t).1.map (t.now, ·)) = [] ∧
          st'.sendNextExpTime = st.sendNextExpTime ∨
        st.sendNextExpTime + 60000 < st'.sendNextExpTime ∧
          exptimesOf ((turn timeout st t).1.map (t.now, ·)) = [st'.sendNextExpTime]) := by
  rcases turn_cases timeout st t with hover | ⟨-, ⟨hflush, -⟩ | hturn⟩
  · obtain ⟨-, stop, hstop⟩ := turn_over hover
    rw [hstop] at h
    cases h
  · rw [hflush] at h
    cases h
  · rw [hturn] at h ⊢
    obtain ⟨-, -, hnext⟩ := handlePoll_ok h
    rw [List.map_append, exptimesOf_append, exptimesOf_handlePoll, exptimesOf_exptimes,
      List.append_nil, hnext]
    unfold timed
    dsimp only
    by_cases hminute : t.now - st.sendNextExpTime > 60000
    · rw [if_pos hminute, if_pos hminute]
      exact ⟨by omega, by omega, .inr ⟨by omega, rfl⟩⟩
    · rw [if_neg hminute, if_neg hminute]
      exact ⟨by omega, le_refl _, .inl ⟨rfl, rfl⟩⟩

theorem run_spaced (timeout : Nat) (st : Session) (turns : List Turn) :
    (st.sendNextExpTime :: exptimesOf (run timeout st turns).1).Pairwise
      fun a b ↦ a + 60000 < b := by
  induction turns generalizing st with
  | nil => exact List.pairwise_singleton _ _
  | cons t turns ih =>
    -- the next state begins with the time that the client has been told last
    cases hturn : (turn timeout st t).2 with
    | error stop =>
      rw [run_cons_error hturn]
      rcases turn_exptimes timeout st t with hnone | ⟨hminute, hone⟩
      · rw [hnone]
        exact List.pairwise_singleton _ _
      · rw [hone, List.pairwise_pair]
        omega
    | ok next =>
      rw [run_cons_ok hturn, exptimesOf_append]
      have hrest := ih next
      obtain ⟨-, -, ⟨hnone, hsame⟩ | ⟨hspace, hone⟩⟩ := turn_ok_exptimes hturn
      · rw [hnone, List.nil_append, ← hsame]
        exact hrest
      · rw [hone, List.singleton_append, List.pairwise_cons]
        refine ⟨fun b hb ↦ ?_, hrest⟩
        rcases List.mem_cons.mp hb with rfl | hb
        · exact hspace
        · have hlater := (List.pairwise_cons.mp hrest).1 b hb
          omega

theorem run_concat_ok {before : List Turn} (h : (run timeout st (before ++ [t])).2 = .ok st') :
    ∃ last, (run timeout st before).2 = .ok last ∧ (turn timeout last t).2 = .ok st' ∧
      (run timeout st (before ++ [t])).1 =
        (run timeout st before).1 ++ (turn timeout last t).1.map (t.now, ·) := by
  induction before generalizing st with
  | nil =>
    rw [List.nil_append] at h ⊢
    cases hturn : (turn timeout st t).2 with
    | error stop =>
      rw [run_cons_error hturn] at h
      cases h
    | ok next =>
      rw [run_cons_ok hturn] at h ⊢
      cases h
      exact ⟨st, rfl, hturn, List.append_nil _⟩
  | cons t' before ih =>
    rw [List.cons_append] at h ⊢
    cases hturn : (turn timeout st t').2 with
    | error stop =>
      rw [run_cons_error hturn] at h
      cases h
    | ok next =>
      rw [run_cons_ok hturn] at h ⊢
      rw [run_cons_ok hturn]
      obtain ⟨last, hlast, hend, hsent⟩ := ih h
      refine ⟨last, hlast, hend, ?_⟩
      rw [hsent, List.append_assoc]

/-- The last time that the client has been told is the one that the session goes by. -/
theorem run_sendNextExpTime (h : (run timeout st turns).2 = .ok st') :
    st'.sendNextExpTime ∈ st.sendNextExpTime :: exptimesOf (run timeout st turns).1 := by
  -- from the end, because the last turn decides which time the state has
  induction turns using List.reverseRecOn generalizing st' with
  | nil =>
    cases h
    exact List.mem_cons_self
  | append_singleton before t ih =>
    obtain ⟨last, hlast, hturn, hsent⟩ := run_concat_ok h
    have hbefore := ih hlast
    rw [hsent, exptimesOf_append, ← List.cons_append]
    obtain ⟨-, -, ⟨-, hsame⟩ | ⟨-, hone⟩⟩ := turn_ok_exptimes hturn
    · rw [hsame]
      exact List.mem_append_left _ hbefore
    · rw [hone]
      exact List.mem_append_right _ List.mem_cons_self

/-- A session at its start, before the client is told anything. -/
def Session.begin (sse : Sse) (start : Int) : Session where
  sse := sse
  start := start

/-- The client is told the time of its token at most once a minute. Whenever a turn waits for a
message, it has been told within the last minute, unless the clock has shown less than a minute. -/
theorem run_exptimes (timeout : Nat) (sse : Sse) (start : Int) (turns : List Turn) :
    (exptimesOf (run timeout (.begin sse start) turns).1).Pairwise (fun a b ↦ a + 60000 < b) ∧
      (∀ a ∈ exptimesOf (run timeout (.begin sse start) turns).1, 60000 < a) ∧
      ∀ before t after st', turns = before ++ t :: after →
        (run timeout (.begin sse start) (before ++ [t])).2 = .ok st' →
          t.now ≤ 60000 ∨
            ∃ a ∈ exptimesOf (run timeout (.begin sse start) (before ++ [t])).1,
              t.now - a ≤ 60000 := by
  -- the session begins as if it had told the client something when the clock was at zero
  obtain ⟨hfirst, hspaced⟩ :=
    List.pairwise_cons.mp (run_spaced timeout (.begin sse start) turns)
  refine ⟨hspaced, fun a ha ↦ ?_, fun before t after st' _ hok ↦ ?_⟩
  · have hminute := hfirst a ha
    rwa [show (Session.begin sse start).sendNextExpTime = 0 from rfl, zero_add] at hminute
  · obtain ⟨last, hlast, hturn, -⟩ := run_concat_ok hok
    have hnow := (turn_ok_exptimes hturn).1
    rcases List.mem_cons.mp (run_sendNextExpTime hok) with hzero | htold
    · left
      rwa [hzero, show (Session.begin sse start).sendNextExpTime = 0 from rfl, sub_zero] at hnow
    · exact .inr ⟨st'.sendNextExpTime, htold, hnow⟩

/-! ## The end of a session -/

theorem mem_turn {x : Sent} (h : x ∈ (turn timeout st t).1) :
    (st.diff < timeout ∧ t.shouldStop = false ∧ t.tme ≠ -1) ∧
      ∀ tme, x = .exptime tme → tme = t.tme := by
  rcases turn_cases timeout st t with hover | ⟨hvalid, ⟨hflush, -⟩ | hturn⟩
  · rw [(turn_over hover).1] at h
    cases h
  · rw [hflush] at h
    obtain rfl := List.mem_singleton.mp h
    refine ⟨hvalid, fun tme htme ↦ ?_⟩
    cases htme
    rfl
  · rw [hturn] at h
    refine ⟨hvalid, fun tme htme ↦ ?_⟩
    subst htme
    rcases List.mem_append.mp h with h | h
    · unfold exptimes at h
      split at h
      · cases List.mem_singleton.mp h
        rfl
      · cases h
    · exact absurd h handlePoll_ne

theorem mem_run {x : Int × Sent} (h : x ∈ (run timeout st turns).1) :
    st.diff < timeout ∧ ∃ before t after last, turns = before ++ t :: after ∧
      (run timeout st before).2 = .ok last ∧ x ∈ (turn timeout last t).1.map (t.now, ·) ∧
      (∀ t' ∈ before ++ [t], t'.shouldStop = false ∧ t'.tme ≠ -1) ∧
      ∀ t' ∈ before, t'.now - st.start < timeout := by
  induction turns generalizing st with
  | nil => cases h
  | cons t turns ih =>
    -- what is sent in the first turn; all else is sent in the session that follows
    have hfirst : x ∈ (turn timeout st t).1.map (t.now, ·) →
        st.diff < timeout ∧ ∃ before t' after last, t :: turns = before ++ t' :: after ∧
          (run timeout st before).2 = .ok last ∧ x ∈ (turn timeout last t').1.map (t'.now, ·) ∧
          (∀ t'' ∈ before ++ [t'], t''.shouldStop = false ∧ t''.tme ≠ -1) ∧
          ∀ t'' ∈ before, t''.now - st.start < timeout := by
      intro hx
      obtain ⟨sent, hsent, rfl⟩ := List.mem_map.mp hx
      obtain ⟨⟨hdiff, hstop, htoken⟩, -⟩ := mem_turn hsent
      refine ⟨hdiff, [], t, turns, st, rfl, rfl, hx, fun t' ht' ↦ ?_, nofun⟩
      obtain rfl := List.mem_singleton.mp ht'
      exact ⟨hstop, htoken⟩
    cases hturn : (turn timeout st t).2 with
    | error stop =>
      rw [run_cons_error hturn] at h
      exact hfirst h
    | ok next =>
      rw [run_cons_ok hturn] at h
      rcases List.mem_append.mp h with h | h
      · exact hfirst h
      · obtain ⟨⟨hdiff, hstop, htoken⟩, ⟨hstart, hnext, -⟩, -⟩ := turn_ok hturn
        obtain ⟨hlater, before, t', after, last, rfl, hlast, hx, hvalid, htime⟩ := ih h
        have hbefore : (run timeout st (t :: before)).2 = .ok last := by
          rw [run_cons_ok hturn]
          exact hlast
        refine ⟨hdiff, t :: before, t', after, last, rfl, hbefore, hx, fun t'' ht'' ↦ ?_,
          fun t'' ht'' ↦ ?_⟩
        · rcases List.mem_cons.mp ht'' with rfl | ht''
          · exact ⟨hstop, htoken⟩
          · exact hvalid t'' ht''
        · rcases List.mem_cons.mp ht'' with rfl | ht''
          · rwa [hnext] at hlater
          · have hearly := htime t'' ht''
            rwa [hstart] at hearly

/-- Whatever is sent is sent by a turn of a session with a valid token, which has not been asked
to stop and had time left in every turn before; the time of the token is the one of the turn. -/
theorem run_sent {x : Int × Sent} (h : x ∈ (run timeout st turns).1) :
    ∃ before t after last, turns = before ++ t :: after ∧
      (run timeout st before).2 = .ok last ∧ x ∈ (turn timeout last t).1.map (t.now, ·) ∧
      (∀ t' ∈ before ++ [t], t'.shouldStop = false ∧ t'.tme ≠ -1) ∧
      (∀ t' ∈ before, t'.now - st.start < timeout) ∧
      ∀ tme, x.2 = .exptime tme → tme = t.tme := by
  obtain ⟨-, before, t, after, last, hturns, hlast, hx, hvalid, htime⟩ := mem_run h
  refine ⟨before, t, after, last, hturns, hlast, hx, hvalid, htime, fun tme htme ↦ ?_⟩
  obtain ⟨sent, hsent, rfl⟩ := List.mem_map.mp hx
  exact (mem_turn hsent).2 tme htme

/-- The token is revoked before the last turn. -/
def revokedTurns : List Turn :=
  [⟨false, 70000, 500, true, .expired, true⟩, ⟨false, 131000, 439, true, .expired, true⟩,
    ⟨false, 141000, -1, true, .expired, true⟩]

theorem run_sent_revoked :
    ∃ before t after last, revokedTurns = before ++ t :: after ∧
      (run (tntRequestTimeout 600) (.begin ⟨"dc", ∅, ∅, fun _ ↦ none⟩ 70000) before).2 =
        .ok last ∧
      (131000, Sent.exptime 439) ∈ (turn (tntRequestTimeout 600) last t).1.map (t.now, ·) ∧
      (∀ t' ∈ before ++ [t], t'.shouldStop = false ∧ t'.tme ≠ -1) ∧
      (∀ t' ∈ before, t'.now - 70000 < (tntRequestTimeout 600 : Int)) ∧
      ∀ tme, Sent.exptime 439 = .exptime tme → tme = t.tme := by
  have hsent : (131000, Sent.exptime 439) ∈ (run (tntRequestTimeout 600)
      (.begin ⟨"dc", ∅, ∅, fun _ ↦ none⟩ 70000) revokedTurns).1 := by
    decide +kernel
  exact run_sent hsent

end

/-! ## What the client reads -/

/-- The data of what is sent. -/
def Sent.data : Sent → String
  | .exptime tme =>
      "\x7b\"topic\":\"session\",\"payload\":\x7b\"exptime\":" ++ toString tme ++ "\x7d\x7d"
  | .heartbeat => "\x7b\"topic\":\"heartbeat\",\"payload\":\x7b\x7d\x7d"
  | .event (.deleted asset) => "\x7b\"topic\":\"asset/" ++ asset ++ "\",\"payload\":\x7b\x7d\x7d"
  | .event (.changed asset payload) =>
      "\x7b\"topic\":\"asset/" ++ asset ++ "\",\"payload\":" ++ payload ++ "\x7d"
  | .event (.alarm rule payload) =>
      "\x7b\"topic\":\"alarm/" ++ rule ++ "\",\"payload\":" ++ payload ++ "\x7d"
  | .generic topic jsonPayload =>
      "\x7b\"topic\":\"" ++ topic ++ "\",\"payload\":" ++ jsonPayload ++ "\x7d"

theorem text_one {before opening mid closing after : String} (hopen : before = "data:" ++ opening)
    (hclose : after = closing ++ "\n\n") :
    before ++ mid ++ after = "data:" ++ (opening ++ mid ++ closing) ++ "\n\n" := by
  rw [hopen, hclose]
  simp only [String.append_assoc]

theorem text_two {before opening mid middle rest closing after : String}
    (hopen : before = "data:" ++ opening) (hclose : after = closing ++ "\n\n") :
    before ++ mid ++ middle ++ rest ++ after =
      "data:" ++ (opening ++ mid ++ middle ++ rest ++ closing) ++ "\n\n" := by
  rw [hopen, hclose]
  simp only [String.append_assoc]

theorem text_eq (x : Sent) : x.text = "data:" ++ x.data ++ "\n\n" := by
  cases x with
  | exptime tme => exact text_one rfl rfl
  | heartbeat => rfl
  | event e =>
    cases e with
    | deleted asset => exact text_one rfl rfl
    | changed asset payload => exact text_two rfl rfl
    | alarm rule payload => exact text_two rfl rfl
  | generic topic jsonPayload => exact text_two rfl rfl

theorem text_toList (x : Sent) : x.text.toList = EventStream.event x.data.toList := by
  rw [text_eq, String.toList_append, String.toList_append]
  rfl

theorem head_append {a b : String} {c : Char} (h : a.toList.head? = some c) :
    (a ++ b).toList.head? = some c := by
  rw [String.toList_append, List.head?_append, h]
  rfl

theorem head_data (x : Sent) : x.data.toList.head? = some '\x7b' := by
  cases x with
  | exptime tme => exact head_append (head_append rfl)
  | heartbeat => rfl
  | event e =>
    cases e with
    | deleted asset => exact head_append (head_append rfl)
    | changed asset payload => exact head_append (head_append (head_append (head_append rfl)))
    | alarm rule payload => exact head_append (head_append (head_append (head_append rfl)))
  | generic topic jsonPayload =>
    exact head_append (head_append (head_append (head_append rfl)))

/-- What a session has sent. -/
def output (timeout : Nat) (st : Session) (turns : List Turn) : List Char :=
  (run timeout st turns).1.flatMap fun x ↦ x.2.text.toList

/-- The client reads the data of everything that has been sent just when no data has a line end
in it, such as a name or a payload with one. -/
theorem parse_output_iff (timeout : Nat) (st : Session) (turns : List Turn) :
    EventStream.parse (output timeout st turns) =
        (run timeout st turns).1.map (fun x ↦ x.2.data.toList) ↔
      ∀ x ∈ (run timeout st turns).1, ∀ c ∈ x.2.data.toList, c ≠ '\n' ∧ c ≠ '\r' := by
  have hevents : output timeout st turns =
      ((run timeout st turns).1.map fun x ↦ x.2.data.toList).flatMap EventStream.event := by
    unfold output
    rw [List.flatMap_map]
    exact List.flatMap_congr fun x _ ↦ text_toList x.2
  have hspace : ∀ data ∈ (run timeout st turns).1.map (fun x ↦ x.2.data.toList),
      data.head? ≠ some ' ' := by
    intro data hdata
    obtain ⟨x, -, rfl⟩ := List.mem_map.mp hdata
    rw [head_data]
    decide
  rw [hevents, EventStream.parse_events_iff hspace, List.forall_mem_map]
  simp only [EventStream.isBreak_eq_false]

end FtyRest.Web
