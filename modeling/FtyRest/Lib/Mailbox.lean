import Mathlib.Data.List.Basic
import Mathlib.Logic.Relation
import Mathlib.Logic.Function.Basic

/-!
# Waiting at a mailbox

Clients that send one request each to an agent and wait at a mailbox of their own for its reply.
The loop that waits polls with a timeout, keeps what it received last, and goes on when that is
not from the agent.
-/

namespace Mailbox

variable {μ : Type*}

/-! ## The loop -/

/-- What a poll comes back with; a reception may fail. -/
inductive Wake (μ : Type*) where
  | expired
  | terminated
  | readable (message : Option μ)
deriving DecidableEq, Repr

inductive Outcome (μ : Type*) where
  | reply (message : μ)
  | timedOut
  | failed
  | waiting
deriving DecidableEq, Repr

/-- The loop over the polls, with the message that is held from the polls before.  `fromAgent`
looks at the sender, and `quit` tells whether to be terminated counts as a timeout. -/
def await (fromAgent : μ → Bool) (quit : Bool) (held : Option μ) : List (Wake μ) → Outcome μ
  | [] => .waiting
  | wake :: wakes =>
      match wake with
      | .readable none => .failed
      | .readable (some m) =>
          if fromAgent m then .reply m else await fromAgent quit (some m) wakes
      | .expired =>
          -- nothing is received, and the message before is looked at once more
          match held with
          | none => .timedOut
          | some m => if fromAgent m then .reply m else await fromAgent quit held wakes
      | .terminated =>
          match held with
          | none => if quit then .timedOut else .failed
          | some m => if fromAgent m then .reply m else await fromAgent quit held wakes

/-- A poll that brings something the loop ends with. -/
def settling (fromAgent : μ → Bool) : Wake μ → Bool
  | .readable none => true
  | .readable (some m) => fromAgent m
  | _ => false

/-- How the loop ends with it. -/
def settled : Option (Wake μ) → Outcome μ
  | some (.readable none) => .failed
  | some (.readable (some m)) => .reply m
  | _ => .waiting

section

variable {fromAgent : μ → Bool} {quit : Bool} {wakes : List (Wake μ)}

theorem find_settling_readable {m : μ} :
    (Wake.readable (some m) :: wakes).find? (settling fromAgent) =
      if fromAgent m then some (.readable (some m)) else wakes.find? (settling fromAgent) := by
  cases hm : fromAgent m <;> simp [settling, hm]

/-- With a foreign message in hand no timeout ends the loop. -/
theorem await_held {held : μ} (hheld : fromAgent held = false) :
    await fromAgent quit (some held) wakes = settled (wakes.find? (settling fromAgent)) := by
  induction wakes generalizing held with
  | nil => rfl
  | cons wake wakes ih =>
    cases wake with
    | readable message =>
      cases message with
      | none => rfl
      | some m =>
        rw [await, find_settling_readable]
        cases hm : fromAgent m with
        | true => rfl
        | false => exact ih hm
    | _ =>
      rw [await]
      simp only [hheld]
      rw [if_neg Bool.false_ne_true, ih hheld, List.find?_cons_of_neg Bool.false_ne_true]

/-- Whether the loop gets as far as the first reception. -/
def received : List (Wake μ) → Bool
  | .readable _ :: _ => true
  | _ => false

theorem await_received (h : received wakes = true) :
    await fromAgent quit none wakes = settled (wakes.find? (settling fromAgent)) := by
  cases wakes with
  | nil => cases h
  | cons wake wakes =>
    cases wake with
    | readable message =>
      cases message with
      | none => rfl
      | some m =>
        rw [await, find_settling_readable]
        cases hm : fromAgent m with
        | true => rfl
        | false => exact await_held hm
    | _ => cases h

theorem settled_ne_timedOut (wake : Option (Wake μ)) : settled wake ≠ .timedOut := by
  unfold settled
  split <;> exact nofun

theorem settled_eq_reply {wake : Option (Wake μ)} {m : μ} :
    settled wake = .reply m ↔ wake = some (.readable (some m)) := by
  constructor
  · intro h
    unfold settled at h
    split at h
    · cases h
    · rw [Outcome.reply.injEq] at h
      rw [h]
    · cases h
  · rintro rfl
    rfl

/-- The loop times out at the first poll, or not at all. -/
theorem await_eq_timedOut :
    await fromAgent quit none wakes = .timedOut ↔
      wakes.head? = some .expired ∨ quit = true ∧ wakes.head? = some .terminated := by
  cases wakes with
  | nil => simp [await]
  | cons wake wakes =>
    cases wake with
    | readable message =>
      rw [await_received rfl]
      simp [settled_ne_timedOut]
    | expired => simp [await]
    | terminated => cases quit <;> simp [await]

/-- The reply is the first message of the agent, when no timeout comes before every message and no
reception fails before it. -/
theorem await_eq_reply {m : μ} :
    await fromAgent quit none wakes = .reply m ↔
      received wakes = true ∧ wakes.find? (settling fromAgent) = some (.readable (some m)) := by
  cases h : received wakes with
  | true => rw [await_received h, settled_eq_reply, eq_self, true_and]
  | false =>
    cases wakes with
    | nil => simp [await]
    | cons wake wakes =>
      cases wake with
      | readable message => cases h
      | expired => simp [await]
      | terminated => cases quit <;> simp [await]

theorem settled_eq_waiting : settled (wakes.find? (settling fromAgent)) = .waiting ↔
    wakes.find? (settling fromAgent) = none := by
  cases hfind : wakes.find? (settling fromAgent) with
  | none => exact iff_of_true rfl rfl
  | some wake =>
    have hset : settling fromAgent wake = true := List.find?_some hfind
    cases wake with
    | readable message => cases message <;> simp [settled]
    | expired => cases hset
    | terminated => cases hset

/-- Once something is received, the loop waits until it receives a message of the agent. -/
theorem await_eq_waiting :
    await fromAgent quit none wakes = .waiting ↔
      wakes = [] ∨ received wakes = true ∧ wakes.find? (settling fromAgent) = none := by
  cases wakes with
  | nil => simp [await]
  | cons wake wakes =>
    cases wake with
    | readable message =>
      rw [await_received rfl, settled_eq_waiting]
      simp [received]
    | expired => simp [await, received]
    | terminated => cases quit <;> simp [await, received]

end

/-! ## Clients and the agent -/

/-- What the clients have sent, what the agent has not looked at yet, what stands in the mailboxes,
and what was received from them. -/
structure Net (ι ρ μ : Type*) where
  sent : ι → Option ρ := fun _ ↦ none
  inbox : List (ι × ρ) := []
  mailbox : ι → List μ := fun _ ↦ []
  received : ι → List μ := fun _ ↦ []

variable {ι ρ : Type*} [DecidableEq ι]

/-- What may happen next.  The agent takes any of the requests, and may lose it; others may write
into the mailboxes as well. -/
inductive Step (fromAgent : μ → Bool) (answers : ρ → μ → Prop) : Net ι ρ μ → Net ι ρ μ → Prop
  | send {net : Net ι ρ μ} (c : ι) (r : ρ) : net.sent c = none → Step fromAgent answers net
      { net with sent := Function.update net.sent c (some r), inbox := net.inbox ++ [(c, r)] }
  | answer {net : Net ι ρ μ} (c : ι) (r : ρ) (m : μ) (before after : List (ι × ρ)) :
      net.inbox = before ++ (c, r) :: after → answers r m → Step fromAgent answers net
        { net with
          inbox := before ++ after
          mailbox := Function.update net.mailbox c (net.mailbox c ++ [m]) }
  | lose {net : Net ι ρ μ} (request : ι × ρ) (before after : List (ι × ρ)) :
      net.inbox = before ++ request :: after → Step fromAgent answers net
        { net with inbox := before ++ after }
  | foreign {net : Net ι ρ μ} (c : ι) (m : μ) : fromAgent m = false → Step fromAgent answers net
      { net with mailbox := Function.update net.mailbox c (net.mailbox c ++ [m]) }
  | receive {net : Net ι ρ μ} (c : ι) (m : μ) (rest : List μ) : net.mailbox c = m :: rest →
      Step fromAgent answers net
        { net with
          mailbox := Function.update net.mailbox c rest
          received := Function.update net.received c (net.received c ++ [m]) }

/-- What has come to a client, in its order. -/
def Net.delivered (net : Net ι ρ μ) (c : ι) : List μ := net.received c ++ net.mailbox c

/-- The requests of a client that wait, and the messages of the agent that it was sent. -/
def Net.traffic (fromAgent : μ → Bool) (net : Net ι ρ μ) (c : ι) : Nat :=
  (net.inbox.map Prod.fst).count c + (net.delivered c).countP fromAgent

/-- Every request is the one that its client has sent, every message of the agent is an answer to
what its receiver has sent, and there is at most one of both. -/
structure Sound (fromAgent : μ → Bool) (answers : ρ → μ → Prop) (net : Net ι ρ μ) : Prop where
  inbox : ∀ request ∈ net.inbox, net.sent request.1 = some request.2
  answered : ∀ c, ∀ m ∈ net.delivered c, fromAgent m = true →
    ∃ r, net.sent c = some r ∧ answers r m
  once : ∀ c, net.traffic fromAgent c ≤ if (net.sent c).isSome then 1 else 0

section

variable {fromAgent : μ → Bool} {answers : ρ → μ → Prop} {net net' : Net ι ρ μ}

/-- A message is put into a mailbox, whatever happens to the requests. -/
theorem delivered_put {inbox : List (ι × ρ)} {c c' : ι} {m : μ} :
    Net.delivered { net with
      inbox := inbox, mailbox := Function.update net.mailbox c (net.mailbox c ++ [m]) } c' =
      net.delivered c' ++ if c' = c then [m] else [] := by
  show net.received c' ++ Function.update net.mailbox c (net.mailbox c ++ [m]) c' = _
  by_cases h : c' = c
  · rw [h, if_pos rfl, Function.update_self, ← List.append_assoc]
    rfl
  · rw [if_neg h, Function.update_of_ne h, List.append_nil]
    rfl

/-- A reception takes a message from the one list to the other. -/
theorem delivered_receive {c c' : ι} {m : μ} {rest : List μ} (h : net.mailbox c = m :: rest) :
    Net.delivered { net with
      mailbox := Function.update net.mailbox c rest
      received := Function.update net.received c (net.received c ++ [m]) } c' =
      net.delivered c' := by
  show Function.update net.received c (net.received c ++ [m]) c' ++
    Function.update net.mailbox c rest c' = net.received c' ++ net.mailbox c'
  by_cases hc : c' = c
  · rw [hc, Function.update_self, Function.update_self, h, List.append_assoc]
    rfl
  · rw [Function.update_of_ne hc, Function.update_of_ne hc]

theorem count_inbox {before after : List (ι × ρ)} {c c' : ι} {r : ρ} :
    ((before ++ (c, r) :: after).map Prod.fst).count c' =
      ((before ++ after).map Prod.fst).count c' + if c' = c then 1 else 0 := by
  rw [List.map_append, List.map_append, List.map_cons, List.count_append, List.count_append,
    List.count_cons, ← Nat.add_assoc]
  by_cases h : c' = c
  · rw [if_pos h, if_pos (beq_iff_eq.mpr h.symm)]
  · rw [if_neg h, if_neg fun heq ↦ h (beq_iff_eq.mp heq).symm]

theorem countP_put {c c' : ι} {m : μ} :
    (if c' = c then [m] else []).countP fromAgent = if c' = c ∧ fromAgent m = true then 1 else 0 := by
  by_cases hc : c' = c
  · simp [hc, List.countP_singleton]
  · simp [hc]

namespace Sound

/-- A client that has not sent yet has no request waiting and no answer. -/
theorem send (hnet : Sound fromAgent answers net) {c : ι} (hnew : net.sent c = none) (r : ρ) :
    Sound fromAgent answers
      { net with sent := Function.update net.sent c (some r), inbox := net.inbox ++ [(c, r)] } := by
  -- a client that has sent nothing has no request on the way and no answer waiting
  have hnone : net.traffic fromAgent c = 0 := by
    have honce := hnet.once c
    rw [hnew] at honce
    exact Nat.le_zero.mp honce
  have hother : ∀ c', c' ≠ c → Function.update net.sent c (some r) c' = net.sent c' :=
    fun c' h ↦ Function.update_of_ne h _ _
  have hself : Function.update net.sent c (some r) c = some r := Function.update_self _ _ _
  have hold : ∀ c' r', net.sent c' = some r' → c' ≠ c := by
    rintro c' r' hsent rfl
    rw [hnew] at hsent
    cases hsent
  refine ⟨?_, ?_, ?_⟩
  · intro request hmem
    rcases List.mem_append.mp hmem with hmem | hmem
    · have hsent := hnet.inbox request hmem
      exact (hother _ (hold _ _ hsent)).trans hsent
    · rw [List.mem_singleton.mp hmem]
      exact hself
  · intro c' m hm hfrom
    obtain ⟨r', hsent, hanswer⟩ := hnet.answered c' m hm hfrom
    exact ⟨r', (hother _ (hold _ _ hsent)).trans hsent, hanswer⟩
  · intro c'
    show ((net.inbox ++ [(c, r)]).map Prod.fst).count c' + (net.delivered c').countP fromAgent ≤
      if (Function.update net.sent c (some r) c').isSome then 1 else 0
    have honce := hnet.once c'
    rw [count_inbox, List.append_nil]
    by_cases hc : c' = c
    · rw [hc, hself, if_pos rfl]
      unfold Net.traffic at hnone
      simp only [Option.isSome_some, if_true]
      omega
    · rw [hother c' hc, if_neg hc]
      exact honce

/-- A request that leaves the inbox takes one from the traffic of its client. -/
theorem once_taken (hnet : Sound fromAgent answers net) {request : ι × ρ}
    {before after : List (ι × ρ)} (hinbox : net.inbox = before ++ request :: after) (c' : ι) :
    ((before ++ after).map Prod.fst).count c' + (if c' = request.1 then 1 else 0) +
      (net.delivered c').countP fromAgent ≤ if (net.sent c').isSome then 1 else 0 := by
  have honce := hnet.once c'
  unfold Net.traffic at honce
  rw [hinbox, count_inbox (c := request.1) (r := request.2)] at honce
  exact honce

theorem inbox_taken (hnet : Sound fromAgent answers net) {request : ι × ρ}
    {before after : List (ι × ρ)} (hinbox : net.inbox = before ++ request :: after) :
    ∀ request' ∈ before ++ after, net.sent request'.1 = some request'.2 := by
  intro request' hmem
  apply hnet.inbox
  rw [hinbox]
  rcases List.mem_append.mp hmem with hmem | hmem
  · exact List.mem_append_left _ hmem
  · exact List.mem_append_right _ (List.mem_cons_of_mem _ hmem)

/-- The agent answers the request of a client, which had no answer before. -/
theorem answer (hanswers : ∀ r m, answers r m → fromAgent m = true)
    (hnet : Sound fromAgent answers net) {c : ι} {r : ρ} {m : μ} {before after : List (ι × ρ)}
    (hinbox : net.inbox = before ++ (c, r) :: after) (hanswer : answers r m) :
    Sound fromAgent answers
      { net with
        inbox := before ++ after
        mailbox := Function.update net.mailbox c (net.mailbox c ++ [m]) } := by
  have hsent := hnet.inbox (c, r) (by rw [hinbox]; simp)
  refine ⟨hnet.inbox_taken hinbox, ?_, ?_⟩
  · intro c' m' hm' hfrom
    rw [delivered_put, List.mem_append] at hm'
    rcases hm' with hm' | hm'
    · exact hnet.answered c' m' hm' hfrom
    · split at hm'
      · rename_i hc
        rw [List.mem_singleton.mp hm', hc]
        exact ⟨r, hsent, hanswer⟩
      · cases hm'
  · -- the request is taken out of the inbox, and its answer put in: the count stays
    intro c'
    have honce := hnet.once_taken hinbox c'
    have hfrom := hanswers r m hanswer
    dsimp only at honce
    show ((before ++ after).map Prod.fst).count c' + (Net.delivered _ c').countP fromAgent ≤ _
    rw [delivered_put, List.countP_append, countP_put]
    simp only [hfrom, and_true]
    exact Nat.le_trans (by omega) honce

theorem lose (hnet : Sound fromAgent answers net) {request : ι × ρ} {before after : List (ι × ρ)}
    (hinbox : net.inbox = before ++ request :: after) :
    Sound fromAgent answers { net with inbox := before ++ after } := by
  refine ⟨hnet.inbox_taken hinbox, hnet.answered, fun c' ↦ ?_⟩
  have honce := hnet.once_taken hinbox c'
  show ((before ++ after).map Prod.fst).count c' + (net.delivered c').countP fromAgent ≤ _
  exact Nat.le_trans (by omega) honce

/-- What others send is nothing to the agent. -/
theorem foreign (hnet : Sound fromAgent answers net) (c : ι) {m : μ} (hm : fromAgent m = false) :
    Sound fromAgent answers
      { net with mailbox := Function.update net.mailbox c (net.mailbox c ++ [m]) } := by
  refine ⟨hnet.inbox, ?_, ?_⟩
  · intro c' m' hm' hfrom
    rw [delivered_put, List.mem_append] at hm'
    rcases hm' with hm' | hm'
    · exact hnet.answered c' m' hm' hfrom
    · split at hm'
      · rw [List.mem_singleton.mp hm', hm] at hfrom
        cases hfrom
      · cases hm'
  · intro c'
    have honce := hnet.once c'
    unfold Net.traffic at honce ⊢
    rw [delivered_put, List.countP_append, countP_put]
    simpa [hm] using honce

theorem receive (hnet : Sound fromAgent answers net) {c : ι} {m : μ} {rest : List μ}
    (hmailbox : net.mailbox c = m :: rest) :
    Sound fromAgent answers
      { net with
        mailbox := Function.update net.mailbox c rest
        received := Function.update net.received c (net.received c ++ [m]) } := by
  refine ⟨hnet.inbox, ?_, ?_⟩
  · intro c' m' hm' hfrom
    rw [delivered_receive hmailbox] at hm'
    exact hnet.answered c' m' hm' hfrom
  · intro c'
    have honce := hnet.once c'
    unfold Net.traffic at honce ⊢
    rw [delivered_receive hmailbox]
    exact honce

end Sound

theorem Step.sound (hanswers : ∀ r m, answers r m → fromAgent m = true)
    (h : Step fromAgent answers net net') (hnet : Sound fromAgent answers net) :
    Sound fromAgent answers net' := by
  cases h with
  | send c r hnew => exact hnet.send hnew r
  | answer c r m before after hinbox hanswer => exact hnet.answer hanswers hinbox hanswer
  | lose request before after hinbox => exact hnet.lose hinbox
  | foreign c m hm => exact hnet.foreign c hm
  | receive c m rest hmailbox => exact hnet.receive hmailbox

/-- Nothing has been sent. -/
theorem sound_start : Sound fromAgent answers ({} : Net ι ρ μ) where
  inbox _ h := absurd h List.not_mem_nil
  answered _ _ h := absurd h List.not_mem_nil
  once _ := Nat.le_refl 0

theorem reachable_sound (hanswers : ∀ r m, answers r m → fromAgent m = true)
    (h : Relation.ReflTransGen (Step fromAgent answers) {} net) : Sound fromAgent answers net := by
  induction h with
  | refl => exact sound_start
  | tail _ hstep ih => exact hstep.sound hanswers ih

/-- The messages that a loop receives. -/
def messages (wakes : List (Wake μ)) : List μ :=
  wakes.filterMap fun wake ↦
    match wake with
    | .readable message => message
    | _ => none

/-- Whatever happens in which order: where a client takes a message for the reply to its request,
that message is an answer to the request, and the only message of the agent that comes to it. -/
theorem reply_answers (hanswers : ∀ r m, answers r m → fromAgent m = true)
    (h : Relation.ReflTransGen (Step fromAgent answers) {} net) {c : ι} {quit : Bool}
    {wakes : List (Wake μ)} (hwakes : messages wakes = net.received c) {m : μ}
    (hreply : await fromAgent quit none wakes = .reply m) :
    m ∈ net.received c ∧ (∃ r, net.sent c = some r ∧ answers r m) ∧
      (net.delivered c).countP fromAgent = 1 := by
  have hsound := reachable_sound hanswers h
  obtain ⟨-, hfind⟩ := await_eq_reply.mp hreply
  have hset : settling fromAgent (.readable (some m)) = true := List.find?_some hfind
  have hfrom : fromAgent m = true := hset
  have hreceived : m ∈ net.received c := by
    rw [← hwakes]
    exact List.mem_filterMap.mpr ⟨_, List.mem_of_find?_eq_some hfind, rfl⟩
  have hmem : m ∈ net.delivered c := List.mem_append_left _ hreceived
  obtain ⟨r, hsent, hanswer⟩ := hsound.answered c m hmem hfrom
  have honce := hsound.once c
  rw [hsent] at honce
  unfold Net.traffic at honce
  have hpos : 0 < (net.delivered c).countP fromAgent := List.countP_pos_iff.mpr ⟨m, hmem, hfrom⟩
  simp only [Option.isSome_some, if_true] at honce
  exact ⟨hreceived, ⟨r, hsent, hanswer⟩, by omega⟩

end

end Mailbox
