import Mathlib.Data.List.Infix
import Mathlib.Data.List.GetD
import Mathlib.Algebra.Ring.Nat

/-!
# Chains of components

Requests go along a chain of mappings: a component that is called may decline, and leaves the
request to the mappings behind it.  The requests are served side by side.  A component acts in
steps on what all requests share, and between two of its steps the others act on that, too.
-/

namespace Dispatch

variable {σ ρ ν α δ : Type*}

/-- What comes after a step of a component. -/
inductive Next where
  | onward
  | declined
  | answered
deriving DecidableEq, Repr

/-- A step in one piece, on what is shared and on the request with all that is known of it. -/
abbrev Action (σ ρ : Type*) := σ → ρ → σ × ρ × Next

structure Mapping (σ ρ ν : Type*) where
  target : ν
  covers : ρ → Bool
  /-- A component that comes to its end has answered. -/
  actions : List (Action σ ρ)

structure Job (σ ρ ν : Type*) where
  request : ρ
  /-- The mappings that are left; the first one may have been called already. -/
  chain : List (Mapping σ ρ ν)
  /-- What is left of the component that has been called. -/
  running : Option (List (Action σ ρ))
  answered : Bool

def Job.new (mappings : List (Mapping σ ρ ν)) (request : ρ) : Job σ ρ ν :=
  ⟨request, mappings, none, false⟩

def Job.step (s : σ) (job : Job σ ρ ν) : σ × Job σ ρ ν :=
  if job.answered then (s, job)
  else
    match job.chain with
    | [] => (s, job)
    | m :: chain =>
        match job.running with
        | none =>
            if m.covers job.request then (s, { job with running := some m.actions })
            else (s, { job with chain })
        | some [] => (s, { job with answered := true })
        | some (action :: actions) =>
            let (s, request, next) := action s job.request
            match next with
            | .onward => (s, { job with request, running := some actions })
            | .declined => (s, { job with request, chain, running := none })
            | .answered => (s, { job with request, running := some actions, answered := true })

inductive Event (α δ : Type*) where
  | arrive (a : α)
  | turn (i : Nat)
  /-- What is shared is changed by something else than a request. -/
  | change (d : δ)
deriving DecidableEq, Repr

def Event.isTurn (i : Nat) : Event α δ → Bool
  | .turn k => k = i
  | _ => false

def Event.arrival? : Event α δ → Option α
  | .arrive a => some a
  | _ => none

/-- The states of what is shared up to now, and the requests that have arrived. -/
structure Server (σ ρ ν : Type*) where
  now : σ
  before : List σ
  jobs : List (Job σ ρ ν)

def Server.history (server : Server σ ρ ν) : List σ := server.now :: server.before

section

variable (mappings : List (Mapping σ ρ ν)) (arrived : α → ρ) (change : δ → σ → σ)

def Server.step (server : Server σ ρ ν) : Event α δ → Server σ ρ ν
  | .arrive a => { server with jobs := server.jobs ++ [.new mappings (arrived a)] }
  | .turn i =>
      match server.jobs[i]? with
      | none => server
      | some job =>
          let (now, job) := job.step server.now
          { now, before := server.history, jobs := server.jobs.set i job }
  | .change d => { server with now := change d server.now, before := server.history }

def Server.run (s : σ) (events : List (Event α δ)) : Server σ ρ ν :=
  events.foldl (Server.step mappings arrived change) ⟨s, [], []⟩

end

/-! ## What a step of a job does -/

/-- A step looks at a mapping, comes to the end of a component, or acts. -/
inductive Job.Stepped (s : σ) : Job σ ρ ν → σ × Job σ ρ ν → Prop where
  | done (job : Job σ ρ ν) (h : job.answered = true ∨ job.chain = []) : Stepped s job (s, job)
  | called (request : ρ) (m : Mapping σ ρ ν) (chain : List (Mapping σ ρ ν))
      (h : m.covers request = true) :
      Stepped s ⟨request, m :: chain, none, false⟩
        (s, ⟨request, m :: chain, some m.actions, false⟩)
  | skipped (request : ρ) (m : Mapping σ ρ ν) (chain : List (Mapping σ ρ ν))
      (h : m.covers request = false) :
      Stepped s ⟨request, m :: chain, none, false⟩ (s, ⟨request, chain, none, false⟩)
  | ended (request : ρ) (m : Mapping σ ρ ν) (chain : List (Mapping σ ρ ν)) :
      Stepped s ⟨request, m :: chain, some [], false⟩ (s, ⟨request, m :: chain, some [], true⟩)
  | onward (request : ρ) (m : Mapping σ ρ ν) (chain : List (Mapping σ ρ ν))
      (action : Action σ ρ) (actions : List (Action σ ρ)) (s' : σ) (request' : ρ)
      (h : action s request = (s', request', .onward)) :
      Stepped s ⟨request, m :: chain, some (action :: actions), false⟩
        (s', ⟨request', m :: chain, some actions, false⟩)
  | declined (request : ρ) (m : Mapping σ ρ ν) (chain : List (Mapping σ ρ ν))
      (action : Action σ ρ) (actions : List (Action σ ρ)) (s' : σ) (request' : ρ)
      (h : action s request = (s', request', .declined)) :
      Stepped s ⟨request, m :: chain, some (action :: actions), false⟩
        (s', ⟨request', chain, none, false⟩)
  | answered (request : ρ) (m : Mapping σ ρ ν) (chain : List (Mapping σ ρ ν))
      (action : Action σ ρ) (actions : List (Action σ ρ)) (s' : σ) (request' : ρ)
      (h : action s request = (s', request', .answered)) :
      Stepped s ⟨request, m :: chain, some (action :: actions), false⟩
        (s', ⟨request', m :: chain, some actions, true⟩)

theorem Job.stepped (s : σ) (job : Job σ ρ ν) : Job.Stepped s job (job.step s) := by
  obtain ⟨request, chain, running, answered⟩ := job
  cases answered with
  | true => exact .done _ (.inl rfl)
  | false =>
    cases chain with
    | nil => exact .done _ (.inr rfl)
    | cons m chain =>
      rcases running with _ | _ | ⟨action, actions⟩
      · cases hm : m.covers request with
        | true =>
          have hstep : Job.step s ⟨request, m :: chain, none, false⟩ =
              (s, ⟨request, m :: chain, some m.actions, false⟩) := by simp [Job.step, hm]
          exact hstep ▸ .called request m chain hm
        | false =>
          have hstep : Job.step s ⟨request, m :: chain, none, false⟩ =
              (s, ⟨request, chain, none, false⟩) := by simp [Job.step, hm]
          exact hstep ▸ .skipped request m chain hm
      · exact .ended request m chain
      · rcases hact : action s request with ⟨s', request', next⟩
        cases next with
        | onward =>
          have hstep : Job.step s ⟨request, m :: chain, some (action :: actions), false⟩ =
              (s', ⟨request', m :: chain, some actions, false⟩) := by simp [Job.step, hact]
          exact hstep ▸ .onward request m chain action actions s' request' hact
        | declined =>
          have hstep : Job.step s ⟨request, m :: chain, some (action :: actions), false⟩ =
              (s', ⟨request', chain, none, false⟩) := by simp [Job.step, hact]
          exact hstep ▸ .declined request m chain action actions s' request' hact
        | answered =>
          have hstep : Job.step s ⟨request, m :: chain, some (action :: actions), false⟩ =
              (s', ⟨request', m :: chain, some actions, true⟩) := by simp [Job.step, hact]
          exact hstep ▸ .answered request m chain action actions s' request' hact

/-! ## Components side by side

What a component knows must outlast what the others do.  It is told of the states of what is
shared up to now, the last one first: what has been so once, has been so from then on. -/

abbrev Assertion (σ ρ : Type*) := List σ → ρ → Prop

def Lasting (P : Assertion σ ρ) : Prop := ∀ s past request, P past request → P (s :: past) request

/-- There was a state of this kind. -/
def Once (φ : σ → ρ → Prop) : Assertion σ ρ := fun past request ↦ ∃ s ∈ past, φ s request

theorem lasting_once (φ : σ → ρ → Prop) : Lasting (Once φ) := by
  rintro s past request ⟨s', hs', h⟩
  exact ⟨s', List.mem_cons_of_mem s hs', h⟩

theorem lasting_const (φ : ρ → Prop) : Lasting fun (_ : List σ) request ↦ φ request :=
  fun _ _ _ h ↦ h

theorem Lasting.and {P Q : Assertion σ ρ} (hP : Lasting P) (hQ : Lasting Q) :
    Lasting fun past request ↦ P past request ∧ Q past request :=
  fun s past request h ↦ ⟨hP s past request h.1, hQ s past request h.2⟩

/-- Steps from `P` on, with anything in between: `G` holds of what each one does to the request
and to what is shared, and `K` holds once they decline. -/
inductive Keeps (G : ρ → ρ → σ → σ → Prop) (K : Assertion σ ρ) :
    Assertion σ ρ → List (Action σ ρ) → Prop where
  | nil (P : Assertion σ ρ) : Keeps G K P []
  | cons (P Q : Assertion σ ρ) (action : Action σ ρ) (actions : List (Action σ ρ))
      (hQ : Lasting Q)
      (h : ∀ s past request s' request' next, P (s :: past) request →
        action s request = (s', request', next) →
          G request request' s s' ∧ (next = .onward → Q (s' :: s :: past) request') ∧
            (next = .declined → K (s' :: s :: past) request'))
      (hrest : Keeps G K Q actions) : Keeps G K P (action :: actions)

/-- A component of one step. -/
theorem Keeps.single {G : ρ → ρ → σ → σ → Prop} {K P : Assertion σ ρ} {action : Action σ ρ}
    (h : ∀ s past request s' request' next, P (s :: past) request →
      action s request = (s', request', next) →
        G request request' s s' ∧ (next = .declined → K (s' :: s :: past) request')) :
    Keeps G K P [action] := by
  refine .cons P (fun _ _ ↦ True) action [] (lasting_const _) ?_ (.nil _)
  intro s past request s' request' next hP hact
  obtain ⟨hG, hK⟩ := h s past request s' request' next hP hact
  exact ⟨hG, fun _ ↦ trivial, hK⟩

/-- Each component keeps to the `G` of its mapping, whose `K` holds when it declines. -/
def AllKeep (G : Mapping σ ρ ν → ρ → ρ → σ → σ → Prop) (K : Mapping σ ρ ν → Assertion σ ρ)
    (mappings : List (Mapping σ ρ ν)) : Prop :=
  ∀ m ∈ mappings, Keeps (G m) (K m) (fun _ request ↦ m.covers request = true) m.actions

section

variable (G : Mapping σ ρ ν → ρ → ρ → σ → σ → Prop) (K : Mapping σ ρ ν → Assertion σ ρ)
  (mappings : List (Mapping σ ρ ν))

/-- What is left of a component keeps to what the component keeps to. -/
structure Job.Sound (past : List σ) (job : Job σ ρ ν) : Prop where
  chain : job.chain <:+ mappings
  running : ∀ m chain actions, job.chain = m :: chain → job.running = some actions →
    job.answered = false →
      ∃ P, Lasting P ∧ P past job.request ∧ Keeps (G m) (K m) P actions

/-- What a step of a job may do. -/
def Job.Allowed (job job' : Job σ ρ ν) (s s' : σ) : Prop :=
  job'.request = job.request ∧ s' = s ∨
    ∃ m chain, job.chain = m :: chain ∧ G m job.request job'.request s s'

end

section

variable {G : Mapping σ ρ ν → ρ → ρ → σ → σ → Prop} {K : Mapping σ ρ ν → Assertion σ ρ}
  {mappings : List (Mapping σ ρ ν)} {s s' : σ} {past : List σ} {job job' : Job σ ρ ν}

theorem Job.sound_new (request : ρ) :
    Job.Sound G K mappings past (.new mappings request) := by
  refine ⟨List.suffix_refl mappings, fun m chain actions _ hrunning _ ↦ ?_⟩
  cases hrunning

theorem Job.Sound.lasts (h : Job.Sound G K mappings past job) (s : σ) :
    Job.Sound G K mappings (s :: past) job := by
  refine ⟨h.chain, fun m chain actions hchain hrunning hanswered ↦ ?_⟩
  obtain ⟨P, hlasting, hP, hkeeps⟩ := h.running m chain actions hchain hrunning hanswered
  exact ⟨P, hlasting, hlasting s past job.request hP, hkeeps⟩

/-- A step keeps to `G`, and what is left of the component to what the component keeps to. -/
theorem Job.Sound.step (hall : AllKeep G K mappings)
    (h : Job.Sound G K mappings (s :: past) job) (hstep : Job.Stepped s job (s', job')) :
    Job.Sound G K mappings (s' :: s :: past) job' ∧ Job.Allowed G job job' s s' := by
  cases hstep with
  | done _ hover => exact ⟨h.lasts s, .inl ⟨rfl, rfl⟩⟩
  | called request m chain hm =>
    refine ⟨⟨h.chain, fun m' chain' actions hchain hrunning _ ↦ ?_⟩, .inl ⟨rfl, rfl⟩⟩
    obtain ⟨rfl, -⟩ := List.cons_eq_cons.mp hchain
    obtain rfl := Option.some.inj hrunning
    exact ⟨_, lasting_const _, hm, hall m (h.chain.subset List.mem_cons_self)⟩
  | skipped request m chain hm =>
    have hsuffix : chain <:+ mappings := (List.suffix_cons m chain).trans h.chain
    refine ⟨⟨hsuffix, fun m' chain' actions _ hrunning _ ↦ ?_⟩, .inl ⟨rfl, rfl⟩⟩
    cases hrunning
  | ended request m chain =>
    refine ⟨⟨h.chain, fun m' chain' actions _ _ hanswered ↦ ?_⟩, .inl ⟨rfl, rfl⟩⟩
    cases hanswered
  -- the action was promised by the keeper of its component, which promises the next one as well
  | onward request m chain action actions _ request' hact =>
    obtain ⟨P, -, hP, hkeeps⟩ := h.running m chain (action :: actions) rfl rfl rfl
    cases hkeeps with
    | cons P Q action actions hQ hdo hrest =>
      obtain ⟨hG, honward, -⟩ := hdo s past request s' request' .onward hP hact
      refine ⟨⟨h.chain, fun m' chain' actions' hchain hrunning _ ↦ ?_⟩,
        .inr ⟨m, chain, rfl, hG⟩⟩
      obtain ⟨rfl, -⟩ := List.cons_eq_cons.mp hchain
      obtain rfl := Option.some.inj hrunning
      exact ⟨Q, hQ, honward rfl, hrest⟩
  -- the next component starts with no action running, so nothing is to be kept
  | declined request m chain action actions _ request' hact =>
    obtain ⟨P, -, hP, hkeeps⟩ := h.running m chain (action :: actions) rfl rfl rfl
    have hsuffix : chain <:+ mappings := (List.suffix_cons m chain).trans h.chain
    cases hkeeps with
    | cons P Q action actions hQ hdo hrest =>
      obtain ⟨hG, -, -⟩ := hdo s past request s' request' .declined hP hact
      refine ⟨⟨hsuffix, fun m' chain' actions' _ hrunning _ ↦ ?_⟩, .inr ⟨m, chain, rfl, hG⟩⟩
      cases hrunning
  | answered request m chain action actions _ request' hact =>
    obtain ⟨P, -, hP, hkeeps⟩ := h.running m chain (action :: actions) rfl rfl rfl
    cases hkeeps with
    | cons P Q action actions hQ hdo hrest =>
      obtain ⟨hG, -, -⟩ := hdo s past request s' request' .answered hP hact
      refine ⟨⟨h.chain, fun m' chain' actions' _ _ hanswered ↦ ?_⟩, .inr ⟨m, chain, rfl, hG⟩⟩
      cases hanswered

theorem Job.Sound.next (hall : AllKeep G K mappings)
    (h : Job.Sound G K mappings (s :: past) job) :
    Job.Sound G K mappings ((job.step s).1 :: s :: past) (job.step s).2 ∧
      Job.Allowed G job (job.step s).2 s (job.step s).1 :=
  h.step hall (Job.stepped s job)

end

/-! ## Behind a gate -/

section

variable {G : Mapping σ ρ ν → ρ → ρ → σ → σ → Prop} {K : Mapping σ ρ ν → Assertion σ ρ}
  {front back : List (Mapping σ ρ ν)} {gate : Mapping σ ρ ν} {C : ρ → Prop}
  {s s' : σ} {past : List σ} {job job' : Job σ ρ ν}

/-- From a mapping in front of the others it is the gate, or one of the others, that leads to
them. -/
theorem cons_suffix_back {m : Mapping σ ρ ν} {chain : List (Mapping σ ρ ν)}
    (hsuffix : m :: chain <:+ front ++ gate :: back) (hback : chain <:+ back) :
    m :: chain <:+ back ∨ m :: chain = gate :: back := by
  have hgate : gate :: back <:+ front ++ gate :: back := List.suffix_append front _
  rcases Nat.lt_or_ge chain.length back.length with hlt | hge
  · left
    have hrest : back <:+ front ++ gate :: back := (List.suffix_cons gate back).trans hgate
    exact List.suffix_of_suffix_length_le hsuffix hrest hlt
  · right
    have hle : (gate :: back).length ≤ (m :: chain).length := Nat.succ_le_succ hge
    have heq : (m :: chain).length ≤ (gate :: back).length := Nat.succ_le_succ hback.length_le
    exact (List.suffix_of_suffix_length_le hsuffix hgate heq).eq_of_length_le hle

/-- A gate that all requests of a kind have to pass, and what the mappings behind it leave of
what it establishes. -/
structure Gate (G : Mapping σ ρ ν → ρ → ρ → σ → σ → Prop) (K : Mapping σ ρ ν → Assertion σ ρ)
    (C : ρ → Prop) (gate : Mapping σ ρ ν) (front back : List (Mapping σ ρ ν)) : Prop where
  keep : AllKeep G K (front ++ gate :: back)
  covers : ∀ request, C request → gate.covers request = true
  lasting : Lasting (K gate)
  kind : ∀ m ∈ front ++ gate :: back, ∀ request request' s s', G m request request' s s' →
    C request' → C request
  carry : ∀ m ∈ back, ∀ request request' s s' past, G m request request' s s' →
    K gate (s :: past) request → K gate (s' :: s :: past) request'

def Job.Behind (K : Mapping σ ρ ν → Assertion σ ρ) (C : ρ → Prop) (gate : Mapping σ ρ ν)
    (back : List (Mapping σ ρ ν)) (past : List σ) (job : Job σ ρ ν) : Prop :=
  job.chain <:+ back → C job.request → K gate past job.request

/-- Inside of a component behind the gate what the gate establishes is carried on. -/
theorem Job.Behind.carried (hgate : Gate G K C gate front back)
    (hbehind : Job.Behind K C gate back (s :: past) job)
    (hchain : job.chain <:+ back) (hC : C job'.request)
    (hallowed : Job.Allowed G job job' s s') :
    K gate (s' :: s :: past) job'.request := by
  rcases hallowed with ⟨hrequest, rfl⟩ | ⟨m, chain, hm, hG⟩
  · rw [hrequest] at hC ⊢
    exact hgate.lasting s' _ _ (hbehind hchain hC)
  · have hmem : m ∈ back := hchain.subset (hm ▸ List.mem_cons_self)
    have hCbefore := hgate.kind m
      (List.mem_append_right front (List.mem_cons_of_mem gate hmem)) _ _ s s' hG hC
    exact hgate.carry m hmem _ _ s s' past hG (hbehind hchain hCbefore)

theorem Job.Behind.step (hgate : Gate G K C gate front back)
    (hsound : Job.Sound G K (front ++ gate :: back) (s :: past) job)
    (hbehind : Job.Behind K C gate back (s :: past) job)
    (hstep : Job.Stepped s job (s', job')) : Job.Behind K C gate back (s' :: s :: past) job' := by
  intro hchain hC
  have hallowed := (hsound.step hgate.keep hstep).2
  cases hstep with
  | done _ hover => exact hgate.lasting s _ _ (hbehind hchain hC)
  | called request m chain hm => exact hgate.lasting s _ _ (hbehind hchain hC)
  | skipped request m chain hm =>
    rcases cons_suffix_back hsound.chain hchain with hback | hat
    · exact hgate.lasting s _ _ (hbehind hback hC)
    · obtain ⟨rfl, -⟩ := List.cons_eq_cons.mp hat
      -- the gate lets no request of the kind go by
      rw [hgate.covers request hC] at hm
      cases hm
  | ended request m chain => exact hgate.lasting s _ _ (hbehind hchain hC)
  | onward request m chain action actions _ request' hact =>
    exact hbehind.carried hgate hchain hC hallowed
  | declined request m chain action actions _ request' hact =>
    rcases cons_suffix_back hsound.chain hchain with hback | hat
    · exact hbehind.carried hgate hback hC hallowed
    · obtain ⟨rfl, -⟩ := List.cons_eq_cons.mp hat
      obtain ⟨P, -, hP, hkeeps⟩ := hsound.running m chain (action :: actions) rfl rfl rfl
      cases hkeeps with
      | cons P Q action actions hQ hdo hrest =>
        exact (hdo s past request s' request' .declined hP hact).2.2 rfl
  | answered request m chain action actions _ request' hact =>
    exact hbehind.carried hgate hchain hC hallowed

end

/-! ## Runs -/

section

variable {mappings : List (Mapping σ ρ ν)} {arrived : α → ρ} {change : δ → σ → σ}

theorem Server.run_concat (s : σ) (events : List (Event α δ)) (event : Event α δ) :
    Server.run mappings arrived change s (events ++ [event]) =
      (Server.run mappings arrived change s events).step mappings arrived change event := by
  rw [Server.run, List.foldl_append]
  rfl

theorem Server.step_turn {server : Server σ ρ ν} {i : Nat} {job : Job σ ρ ν}
    (hi : server.jobs[i]? = some job) :
    server.step mappings arrived change (.turn i) =
      ⟨(job.step server.now).1, server.history, server.jobs.set i (job.step server.now).2⟩ := by
  simp only [Server.step, hi]

theorem Server.step_turn_none {server : Server σ ρ ν} {i : Nat} (hi : server.jobs[i]? = none) :
    server.step mappings arrived change (.turn i) = server := by
  simp only [Server.step, hi]

theorem Event.eq_turn {i : Nat} {event : Event α δ} (h : Event.isTurn i event = true) :
    event = .turn i := by
  cases event with
  | turn k => exact congrArg Event.turn (of_decide_eq_true h)
  | arrive a => cases h
  | change d => cases h

/-- Only its own turns do something to a job. -/
theorem Server.step_other {server : Server σ ρ ν} {i : Nat} {event : Event α δ}
    {job : Job σ ρ ν} (hjob : server.jobs[i]? = some job) (hevent : ¬ Event.isTurn i event = true) :
    (server.step mappings arrived change event).jobs[i]? = some job := by
  cases event with
  | arrive a =>
    show (server.jobs ++ [_])[i]? = some job
    rw [List.getElem?_append_left (List.getElem?_eq_some_iff.mp hjob).1, hjob]
  | turn k =>
    have hk : k ≠ i := by simpa [Event.isTurn] using hevent
    cases hother : server.jobs[k]? with
    | none => rwa [Server.step_turn_none hother]
    | some other => rwa [Server.step_turn hother, List.getElem?_set_ne hk]
  | change d => exact hjob

/-- A job that was not there has come in. -/
theorem Server.step_new {server : Server σ ρ ν} {i : Nat} {event : Event α δ} {job : Job σ ρ ν}
    (hnone : server.jobs[i]? = none)
    (hjob : (server.step mappings arrived change event).jobs[i]? = some job) :
    job.chain = mappings := by
  cases event with
  | arrive a =>
    have hjob : (server.jobs ++ [.new mappings (arrived a)])[i]? = some job := hjob
    rw [List.getElem?_append_right (List.getElem?_eq_none_iff.mp hnone)] at hjob
    rw [List.mem_singleton.mp (List.mem_of_getElem? hjob)]
    rfl
  | turn k =>
    cases hother : server.jobs[k]? with
    | none =>
      rw [Server.step_turn_none hother, hnone] at hjob
      cases hjob
    | some other =>
      rw [Server.step_turn hother, List.getElem?_eq_none_iff.mpr] at hjob
      · cases hjob
      · rw [List.length_set]
        exact List.getElem?_eq_none_iff.mp hnone
  | change d =>
    rw [show (server.step mappings arrived change (.change d)).jobs = server.jobs from rfl,
      hnone] at hjob
    cases hjob

theorem Server.run_append (s : σ) (events events' : List (Event α δ)) :
    Server.run mappings arrived change s (events ++ events') =
      events'.foldl (Server.step mappings arrived change)
        (Server.run mappings arrived change s events) :=
  List.foldl_append

/-- What holds of each job when it arrives, and is kept by its own steps and by those of the
others. -/
theorem Server.run_jobs {I : List σ → Job σ ρ ν → Prop}
    (hnew : ∀ past a, I past (.new mappings (arrived a)))
    (hlasts : ∀ s past job, I past job → I (s :: past) job)
    (hstep : ∀ s past job, I (s :: past) job →
      I ((job.step s).1 :: s :: past) (job.step s).2)
    (s : σ) (events : List (Event α δ)) :
    ∀ job ∈ (Server.run mappings arrived change s events).jobs,
      I (Server.run mappings arrived change s events).history job := by
  induction events using List.reverseRecOn with
  | nil =>
    intro job hjob
    cases hjob
  | append_singleton events event ih =>
    intro job hjob
    rw [Server.run_concat] at hjob ⊢
    generalize Server.run mappings arrived change s events = server at ih hjob ⊢
    cases event with
    | arrive a =>
      rcases List.mem_append.mp hjob with hold | hnewJob
      · exact ih job hold
      · rw [List.mem_singleton.mp hnewJob]
        exact hnew _ a
    | turn i =>
      cases hi : server.jobs[i]? with
      | none =>
        rw [Server.step_turn_none hi] at hjob ⊢
        exact ih job hjob
      | some own =>
        rw [Server.step_turn hi] at hjob ⊢
        -- a turn changes its own job; for the others only the history grows
        rcases List.mem_or_eq_of_mem_set hjob with hother | rfl
        · exact hlasts _ _ job (ih job hother)
        · exact hstep server.now server.before own (ih own (List.mem_of_getElem? hi))
    | change d => exact hlasts _ _ job (ih job hjob)

variable {G : Mapping σ ρ ν → ρ → ρ → σ → σ → Prop} {K : Mapping σ ρ ν → Assertion σ ρ}

theorem Server.run_sound (hall : AllKeep G K mappings) (s : σ) (events : List (Event α δ)) :
    ∀ job ∈ (Server.run mappings arrived change s events).jobs,
      Job.Sound G K mappings (Server.run mappings arrived change s events).history job := by
  refine Server.run_jobs (I := Job.Sound G K mappings) ?_ ?_ ?_ s events
  · exact fun past a ↦ Job.sound_new (arrived a)
  · exact fun s past job h ↦ h.lasts s
  · exact fun s past job h ↦ (h.next hall).1

/-- In every run, what a gate establishes holds of the requests behind it. -/
theorem Server.run_behind {front back : List (Mapping σ ρ ν)} {gate : Mapping σ ρ ν}
    {C : ρ → Prop} (hgate : Gate G K C gate front back) (s : σ) (events : List (Event α δ)) :
    ∀ job ∈ (Server.run (front ++ gate :: back) arrived change s events).jobs,
      Job.Behind K C gate back
        (Server.run (front ++ gate :: back) arrived change s events).history job := by
  suffices hrun : ∀ job ∈ (Server.run (front ++ gate :: back) arrived change s events).jobs,
      Job.Sound G K (front ++ gate :: back)
          (Server.run (front ++ gate :: back) arrived change s events).history job ∧
        Job.Behind K C gate back
          (Server.run (front ++ gate :: back) arrived change s events).history job from
    fun job hjob ↦ (hrun job hjob).2
  refine Server.run_jobs (I := fun past job ↦ Job.Sound G K (front ++ gate :: back) past job ∧
    Job.Behind K C gate back past job) ?_ ?_ ?_ s events
  · -- a new request stands in front of all mappings, so it is not behind the gate
    refine fun past a ↦ ⟨Job.sound_new (arrived a), fun hback _ ↦ ?_⟩
    have hlength := hback.length_le
    simp only [Job.new, List.length_append, List.length_cons] at hlength
    omega
  · rintro s past job ⟨hsound, hbehind⟩
    exact ⟨hsound.lasts s, fun hback hC ↦ hgate.lasting s past job.request (hbehind hback hC)⟩
  · rintro s past job ⟨hsound, hbehind⟩
    exact ⟨(hsound.next hgate.keep).1, hbehind.step hgate hsound (Job.stepped s job)⟩

/-- What no step changes of a request is there for each that has arrived, in their order. -/
theorem Server.run_arrivals {κ : Type*} {φ : ρ → κ} (hall : AllKeep G K mappings)
    (hkeep : ∀ m ∈ mappings, ∀ request request' s s', G m request request' s s' →
      φ request' = φ request) (s : σ) (events : List (Event α δ)) :
    (Server.run mappings arrived change s events).jobs.map (fun job ↦ φ job.request) =
      (events.filterMap Event.arrival?).map fun a ↦ φ (arrived a) := by
  induction events using List.reverseRecOn with
  | nil => rfl
  | append_singleton events event ih =>
    have hsound : ∀ job ∈ (Server.run mappings arrived change s events).jobs,
        Job.Sound G K mappings (Server.run mappings arrived change s events).history job :=
      Server.run_sound hall s events
    rw [Server.run_concat, List.filterMap_append, List.map_append, ← ih]
    generalize Server.run mappings arrived change s events = server at hsound ⊢
    cases event with
    | arrive a => exact List.map_append
    | turn i =>
      show _ = _ ++ []
      rw [List.append_nil]
      cases hi : server.jobs[i]? with
      | none => rw [Server.step_turn_none hi]
      | some own =>
        have hown := hsound own (List.mem_of_getElem? hi)
        have hsame : φ (own.step server.now).2.request = φ own.request := by
          rcases (hown.next hall).2 with ⟨hrequest, -⟩ | ⟨m, chain, hm, hG⟩
          · exact congrArg φ hrequest
          · exact hkeep m (hown.chain.subset (hm ▸ List.mem_cons_self)) _ _ _ _ hG
        rw [Server.step_turn hi]
        show (server.jobs.set i (own.step server.now).2).map (fun job ↦ φ job.request) = _
        rw [List.map_set, hsame]
        -- the job that has moved stands where it stood
        apply List.ext_getElem?
        intro k
        by_cases hk : i = k
        · subst hk
          rw [List.getElem?_set_self (by simpa using (List.getElem?_eq_some_iff.mp hi).1),
            List.getElem?_map, hi]
          rfl
        · rw [List.getElem?_set_ne hk]
    | change d => exact (List.append_nil _).symm

/-- What the steps of the jobs keep of the states and of the requests, every run keeps. -/
theorem Server.run_invariant {F : List σ → List (Job σ ρ ν) → Prop}
    (hall : AllKeep G K mappings)
    (harrive : ∀ past jobs a, F past jobs → F past (jobs ++ [.new mappings (arrived a)]))
    (hchange : ∀ d s past jobs, F (s :: past) jobs → F (change d s :: s :: past) jobs)
    (hturn : ∀ s s' past jobs i job job', jobs[i]? = some job → Job.Allowed G job job' s s' →
      F (s :: past) jobs → F (s' :: s :: past) (jobs.set i job'))
    (s : σ) (hinit : F [s] []) (events : List (Event α δ)) :
    F (Server.run mappings arrived change s events).history
      (Server.run mappings arrived change s events).jobs := by
  induction events using List.reverseRecOn with
  | nil => exact hinit
  | append_singleton events event ih =>
    -- what a turn may do is known of jobs that are sound, as all jobs of a run are
    have hsound : ∀ job ∈ (Server.run mappings arrived change s events).jobs,
        Job.Sound G K mappings (Server.run mappings arrived change s events).history job :=
      Server.run_sound hall s events
    rw [Server.run_concat]
    generalize Server.run mappings arrived change s events = server at ih hsound ⊢
    cases event with
    | arrive a => exact harrive _ _ a ih
    | turn i =>
      cases hi : server.jobs[i]? with
      | none =>
        rwa [Server.step_turn_none hi]
      | some own =>
        rw [Server.step_turn hi]
        have hown := hsound own (List.mem_of_getElem? hi)
        exact hturn _ _ _ _ i own _ hi (hown.next hall).2 ih
    | change d => exact hchange d _ _ _ ih

end

/-! ## How a request passes a gate -/

/-- Of the component that has been called, some first steps are done. -/
def Job.Within (job : Job σ ρ ν) : Prop :=
  ∀ m chain actions, job.chain = m :: chain → job.running = some actions → actions <:+ m.actions

theorem Job.within_new (mappings : List (Mapping σ ρ ν)) (request : ρ) :
    (Job.new mappings request).Within :=
  fun _ _ _ _ hrunning ↦ nomatch hrunning

theorem Job.Within.step {s s' : σ} {job job' : Job σ ρ ν} (h : job.Within)
    (hstep : Job.Stepped s job (s', job')) : job'.Within := by
  cases hstep with
  | done _ hover => exact h
  | called request m chain hm =>
    intro m' chain' actions hchain hrunning
    obtain ⟨rfl, -⟩ := List.cons_eq_cons.mp hchain
    obtain rfl := Option.some.inj hrunning
    exact List.suffix_refl _
  | skipped request m chain hm => exact fun _ _ _ _ hrunning ↦ nomatch hrunning
  | ended request m chain => exact h
  | declined request m chain action actions _ request' hact =>
    exact fun _ _ _ _ hrunning ↦ nomatch hrunning
  | onward request m chain action actions _ request' hact
  | answered request m chain action actions _ request' hact =>
    intro m' chain' actions' hchain hrunning
    obtain ⟨rfl, -⟩ := List.cons_eq_cons.mp hchain
    obtain rfl := Option.some.inj hrunning
    exact (List.suffix_cons action actions).trans (h m chain _ rfl rfl)

/-- The request is in front of the gate, or no step of the gate has been done. -/
def Job.InFront (gate : Mapping σ ρ ν) (back : List (Mapping σ ρ ν)) (job : Job σ ρ ν) : Prop :=
  gate :: back <:+ job.chain ∧ (job.chain = gate :: back →
    job.running = none ∨ job.running = some gate.actions)

/-- The next step of the request leads from the gate to what is behind it. -/
structure Job.Passes (gate : Mapping σ ρ ν) (back : List (Mapping σ ρ ν)) (s : σ)
    (job : Job σ ρ ν) (request' : ρ) : Prop where
  chain : job.chain = gate :: back
  answered : job.answered = false
  declines : ∃ action actions s', job.running = some (action :: actions) ∧
    action :: actions <:+ gate.actions ∧ action s job.request = (s', request', .declined)

section

variable {front back : List (Mapping σ ρ ν)} {gate m : Mapping σ ρ ν}
  {chain : List (Mapping σ ρ ν)} {s s' : σ} {job job' : Job σ ρ ν}

theorem mem_front (hsuffix : m :: chain <:+ front ++ gate :: back)
    (hgate : gate :: back <:+ chain) : m ∈ front := by
  obtain ⟨before, hbefore⟩ := hsuffix
  obtain ⟨mid, rfl⟩ := hgate
  have hfront : before ++ m :: mid = front := by
    have hall : (before ++ m :: mid) ++ gate :: back = front ++ gate :: back := by
      rw [List.append_assoc, List.cons_append, hbefore]
    exact List.append_cancel_right hall
  rw [← hfront]
  exact List.mem_append_right _ List.mem_cons_self

theorem not_suffix_of_append : ¬ front ++ gate :: back <:+ back := by
  intro hback
  have hlength := hback.length_le
  rw [List.length_append, List.length_cons] at hlength
  omega

/-- Where a request has got behind the gate, its step was one that the gate declines with. -/
theorem Job.passes (hcovers : ∀ request, gate.covers request = true)
    (hsuffix : job.chain <:+ front ++ gate :: back) (hwithin : job.Within)
    (hnot : ¬ job.chain <:+ back) (hchain : job'.chain <:+ back)
    (hstep : Job.Stepped s job (s', job')) : job.Passes gate back s job'.request := by
  cases hstep with
  | done _ hover => exact absurd hchain hnot
  | called request m chain hm => exact absurd hchain hnot
  | skipped request m chain hm =>
    obtain ⟨rfl, -⟩ := List.cons_eq_cons.mp ((cons_suffix_back hsuffix hchain).resolve_left hnot)
    rw [hcovers request] at hm
    cases hm
  | ended request m chain => exact absurd hchain hnot
  | onward request m chain action actions _ request' hact => exact absurd hchain hnot
  | declined request m chain action actions _ request' hact =>
    obtain ⟨rfl, rfl⟩ :=
      List.cons_eq_cons.mp ((cons_suffix_back hsuffix hchain).resolve_left hnot)
    exact ⟨rfl, rfl, action, actions, s', rfl, hwithin m chain _ rfl rfl, hact⟩
  | answered request m chain action actions _ request' hact => exact absurd hchain hnot

/-- A step that leaves a request in front of the gate was one of the mappings in front of it. -/
theorem Job.InFront.before (hsuffix : job.chain <:+ front ++ gate :: back)
    (hwithin : job.Within) (hstep : Job.Stepped s job (s', job'))
    (h : job'.InFront gate back) :
    job.InFront gate back ∧ (job'.request = job.request ∨
      ∃ m chain, job.chain = m :: chain ∧ m ∈ front) := by
  -- the chain is longer than the gate and what is behind it
  have hlonger : ∀ {m : Mapping σ ρ ν} {chain : List (Mapping σ ρ ν)},
      gate :: back <:+ chain → m :: chain ≠ gate :: back := by
    intro m chain hgate heq
    have hlength := hgate.length_le
    have hsame := congrArg List.length heq
    simp only [List.length_cons] at hlength hsame
    omega
  obtain ⟨hgate, hfirst⟩ := h
  cases hstep with
  | done _ hover => exact ⟨⟨hgate, hfirst⟩, .inl rfl⟩
  | called request m chain hm => exact ⟨⟨hgate, fun _ ↦ .inl rfl⟩, .inl rfl⟩
  | skipped request m chain hm =>
    exact ⟨⟨hgate.trans (List.suffix_cons m chain), fun heq ↦ absurd heq (hlonger hgate)⟩,
      .inl rfl⟩
  | ended request m chain => exact ⟨⟨hgate, hfirst⟩, .inl rfl⟩
  | declined request m chain action actions _ request' hact =>
    exact ⟨⟨hgate.trans (List.suffix_cons m chain), fun heq ↦ absurd heq (hlonger hgate)⟩,
      .inr ⟨m, chain, rfl, mem_front hsuffix hgate⟩⟩
  | onward request m chain action actions _ request' hact
  | answered request m chain action actions _ request' hact =>
    -- a step of the gate itself is one that is missing then
    have hne : m :: chain ≠ gate :: back := by
      intro heq
      obtain ⟨rfl, -⟩ := List.cons_eq_cons.mp heq
      have hlength := (hwithin m chain _ rfl rfl).length_le
      rcases hfirst heq with hnone | hall
      · cases hnone
      · rw [← Option.some.inj hall, List.length_cons] at hlength
        omega
    refine ⟨⟨hgate, fun heq ↦ absurd heq hne⟩, .inr ⟨m, chain, rfl, ?_⟩⟩
    rcases List.suffix_cons_iff.mp hgate with heq | hchain
    · exact absurd heq.symm hne
    · exact mem_front hsuffix hchain

variable {arrived : α → ρ} {change : δ → σ → σ}
  {G : Mapping σ ρ ν → ρ → ρ → σ → σ → Prop} {K : Mapping σ ρ ν → Assertion σ ρ}

theorem Server.run_within {mappings : List (Mapping σ ρ ν)} (s : σ) (events : List (Event α δ)) :
    ∀ job ∈ (Server.run mappings arrived change s events).jobs, job.Within := by
  refine Server.run_jobs (I := fun _ job ↦ job.Within) ?_ ?_ ?_ s events
  · exact fun past a ↦ Job.within_new _ (arrived a)
  · exact fun s past job h ↦ h
  · exact fun s past job h ↦ h.step (Job.stepped s job)

/-- What the mappings in front of the gate keep holds until the gate does its first step. -/
theorem Server.run_inFront {J : ρ → Prop} (hall : AllKeep G K (front ++ gate :: back))
    (hnew : ∀ a, J (arrived a))
    (hfront : ∀ m ∈ front, ∀ request request' s s', G m request request' s s' →
      J request → J request') (s : σ) (events : List (Event α δ)) :
    ∀ job ∈ (Server.run (front ++ gate :: back) arrived change s events).jobs,
      job.InFront gate back → J job.request := by
  -- alone it is not kept: what is allowed is known of sound jobs within the chain
  suffices hrun : ∀ job ∈ (Server.run (front ++ gate :: back) arrived change s events).jobs,
      Job.Sound G K (front ++ gate :: back)
          (Server.run (front ++ gate :: back) arrived change s events).history job ∧
        job.Within ∧ (job.InFront gate back → J job.request) from
    fun job hjob ↦ (hrun job hjob).2.2
  refine Server.run_jobs (I := fun past job ↦ Job.Sound G K (front ++ gate :: back) past job ∧
    job.Within ∧ (job.InFront gate back → J job.request)) ?_ ?_ ?_ s events
  · exact fun past a ↦ ⟨Job.sound_new (arrived a), Job.within_new _ (arrived a), fun _ ↦ hnew a⟩
  · exact fun s past job h ↦ ⟨h.1.lasts s, h.2⟩
  · rintro s past job ⟨hsound, hwithin, hJ⟩
    have hstep : Job.Stepped s job ((job.step s).1, (job.step s).2) := Job.stepped s job
    obtain ⟨hsound', hallowed⟩ := hsound.next hall
    refine ⟨hsound', hwithin.step hstep, fun hinFront ↦ ?_⟩
    obtain ⟨hbefore, hsame | ⟨m, chain, hm, hmem⟩⟩ :=
      Job.InFront.before hsound.chain hwithin hstep hinFront
    · rw [hsame]
      exact hJ hbefore
    · rcases hallowed with ⟨hrequest, -⟩ | ⟨m', chain', hm', hG⟩
      · rw [hrequest]
        exact hJ hbefore
      · -- the component that acted is in front of the gate, where `J` is kept
        obtain ⟨rfl, -⟩ := List.cons_eq_cons.mp (hm.symm.trans hm')
        exact hfront m hmem _ _ _ _ hG (hJ hbefore)

/-- A request behind a gate has passed it in a turn of its own, and from then on the mappings
behind the gate have been at work on it only. -/
theorem Server.run_passed {R : ρ → ρ → Prop} (hall : AllKeep G K (front ++ gate :: back))
    (hcovers : ∀ request, gate.covers request = true) (hrefl : ∀ request, R request request)
    (hback : ∀ m ∈ back, ∀ first request request' s s', G m request request' s s' →
      R first request → R first request')
    (s : σ) (events : List (Event α δ)) {i : Nat} {job : Job σ ρ ν}
    (hjob : (Server.run (front ++ gate :: back) arrived change s events).jobs[i]? = some job)
    (hbehind : job.chain <:+ back) :
    ∃ before after job₀ first, events = before ++ .turn i :: after ∧
      (Server.run (front ++ gate :: back) arrived change s before).jobs[i]? = some job₀ ∧
      job₀.Passes gate back
        (Server.run (front ++ gate :: back) arrived change s before).now first ∧
      R first job.request := by
  induction events using List.reverseRecOn generalizing job with
  | nil => cases hjob
  | append_singleton events event ih =>
    rw [Server.run_concat] at hjob
    cases hown : (Server.run (front ++ gate :: back) arrived change s events).jobs[i]? with
    | none =>
      -- a request that has just come in stands in front of all mappings
      have hnew : job.chain = front ++ gate :: back := Server.step_new hown hjob
      rw [hnew] at hbehind
      exact absurd hbehind not_suffix_of_append
    | some own =>
      by_cases hevent : Event.isTurn i event = true
      · have hmem := List.mem_of_getElem? hown
        have hsound : Job.Sound G K (front ++ gate :: back)
            (Server.run (front ++ gate :: back) arrived change s events).history own :=
          Server.run_sound hall s events own hmem
        obtain rfl := Event.eq_turn hevent
        rw [Server.step_turn hown,
          List.getElem?_set_self (List.getElem?_eq_some_iff.mp hown).1] at hjob
        obtain rfl := Option.some.inj hjob
        by_cases hchain : own.chain <:+ back
        · obtain ⟨before, after, job₀, first, rfl, hjob₀, hpasses, hR⟩ := ih hown hchain
          refine ⟨before, after ++ [.turn i], job₀, first, ?_, hjob₀, hpasses, ?_⟩
          · rw [List.append_assoc, List.cons_append]
          · rcases (hsound.next hall).2 with ⟨hrequest, -⟩ | ⟨m, chain, hm, hG⟩
            · rwa [hrequest]
            · exact hback m (hchain.subset (hm ▸ List.mem_cons_self)) _ _ _ _ _ hG hR
        · exact ⟨events, [], own, _, rfl, hown, Job.passes hcovers hsound.chain
            (Server.run_within s events own hmem) hchain hbehind (Job.stepped _ own), hrefl _⟩
      · rw [Server.step_other hown hevent] at hjob
        obtain rfl := Option.some.inj hjob
        obtain ⟨before, after, job₀, first, rfl, hjob₀, hpasses, hR⟩ := ih hown hbehind
        refine ⟨before, after ++ [event], job₀, first, ?_, hjob₀, hpasses, hR⟩
        rw [List.append_assoc, List.cons_append]

end

/-! ## Every request comes to an end -/

/-- The steps that a chain may take. -/
def cost (chain : List (Mapping σ ρ ν)) : Nat := (chain.map fun m ↦ m.actions.length + 2).sum

/-- The steps that are left. -/
def Job.left (job : Job σ ρ ν) : Nat :=
  if job.answered then 0
  else
    match job.chain, job.running with
    | [], _ => 0
    | m :: chain, none => cost (m :: chain)
    | _ :: chain, some actions => actions.length + 1 + cost chain

section

variable {mappings : List (Mapping σ ρ ν)} {arrived : α → ρ} {change : δ → σ → σ}
  {job job' : Job σ ρ ν} {s s' : σ}

theorem Job.left_step (h : Job.Stepped s job (s', job')) : job'.left ≤ job.left - 1 := by
  cases h with
  | done _ hover =>
    have hzero : job.left = 0 := by
      rcases hover with h | h
      · simp [Job.left, h]
      · simp [Job.left, h]
    omega
  | called request m chain hm => simp [Job.left, cost]
  | skipped request m chain hm =>
    rcases chain with _ | ⟨m', chain⟩
    · simp [Job.left]
    · simp [Job.left, cost]
  | ended request m chain => simp [Job.left]
  | onward request m chain action actions _ request' hact => simp [Job.left]
  | declined request m chain action actions _ request' hact =>
    rcases chain with _ | ⟨m', chain⟩
    · simp [Job.left]
    · simp [Job.left, cost]
  | answered request m chain action actions _ request' hact => simp [Job.left]

/-- With each of its turns a job has fewer steps left. -/
theorem Server.left_foldl (i : Nat) (events : List (Event α δ)) :
    ∀ (server : Server σ ρ ν) (job : Job σ ρ ν), server.jobs[i]? = some job →
      ∃ job', (events.foldl (Server.step mappings arrived change) server).jobs[i]? = some job' ∧
        job'.left ≤ job.left - events.countP (Event.isTurn i) := by
  induction events with
  | nil => exact fun server job hjob ↦ ⟨job, hjob, le_refl _⟩
  | cons event events ih =>
    intro server job hjob
    -- an own turn takes a step away, everything else leaves the job alone
    by_cases hevent : Event.isTurn i event = true
    · have hstep : (server.step mappings arrived change event).jobs[i]? =
          some (job.step server.now).2 := by
        rw [Event.eq_turn hevent, Server.step_turn hjob,
          List.getElem?_set_self (List.getElem?_eq_some_iff.mp hjob).1]
      obtain ⟨job', hjob', hle⟩ := ih _ _ hstep
      have hleft : (job.step server.now).2.left ≤ job.left - 1 :=
        Job.left_step (Job.stepped server.now job)
      refine ⟨job', hjob', ?_⟩
      rw [List.countP_cons_of_pos hevent]
      omega
    · obtain ⟨job', hjob', hle⟩ := ih _ job (Server.step_other hjob hevent)
      exact ⟨job', hjob', by rwa [List.countP_cons_of_neg hevent]⟩

/-- A request that gets its turns is answered, or no mapping is left. -/
theorem Server.run_over (s : σ) (events events' : List (Event α δ)) (a : α)
    (hturns : cost mappings ≤
      events'.countP (Event.isTurn (Server.run mappings arrived change s events).jobs.length)) :
    ∃ job, (Server.run mappings arrived change s (events ++ .arrive a :: events')).jobs[
        (Server.run mappings arrived change s events).jobs.length]? = some job ∧
      (job.answered = true ∨ job.chain = []) := by
  rw [Server.run_append, List.foldl_cons]
  generalize Server.run mappings arrived change s events = server at hturns ⊢
  have hnew : (server.step mappings arrived change (.arrive a)).jobs[server.jobs.length]? =
      some (.new mappings (arrived a)) := List.getElem?_concat_length
  obtain ⟨job, hjob, hle⟩ := Server.left_foldl server.jobs.length events' _ _ hnew
  refine ⟨job, hjob, ?_⟩
  -- each turn takes one off what is left, and there are as many turns as the chain can cost
  have hleftNew : (Job.new mappings (arrived a)).left ≤ cost mappings := by
    cases mappings with
    | nil => exact Nat.zero_le _
    | cons m chain => exact le_refl _
  have hzero : job.left = 0 := by omega
  obtain ⟨request', chain, running, answered⟩ := job
  rcases answered with _ | _
  · rcases chain with _ | ⟨m, chain⟩
    · exact .inr rfl
    · rcases running with _ | actions
      · simp [Job.left, cost] at hzero
      · simp [Job.left] at hzero
  · exact .inl rfl

end

end Dispatch
