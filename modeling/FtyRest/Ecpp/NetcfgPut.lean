import FtyRest.Ecpp.Netcfg
import FtyRest.Lib.AssocList
import FtyRest.Lib.History

/-!
# Rejected changes of the network

When what a rejected request has set or removed can reach the files.
-/

namespace FtyRest.Ecpp

open Checks History Shared StateExcept

/-! ## The lines of a request -/

section

variable {τ φ : Type} {aug : Augeas τ φ} {s : Augtool τ φ}

/-- Every line that is kept belongs to `old` or to the request that is served. -/
def OwnLines (n : Nat) (old : List (Nat × String)) (s : Augtool τ φ) : Prop :=
  s.request = n ∧ ∀ p ∈ s.lines, p ∈ old ∨ p.1 = n

theorem runLine_ownLines {n : Nat} {old : List (Nat × String)} {line : String}
    (h : OwnLines n old s) : OwnLines n old (Augtool.runLine aug s line) := by
  have ⟨hn, hold⟩ := h
  unfold Augtool.runLine
  split
  · show _ ∧ ∀ p ∈ s.written ++ (s.pending ++ [(s.request, line)]), _
    apply And.intro hn
    intro p hp
    rw [← List.append_assoc] at hp
    rcases List.mem_append.mp hp with hp | hp
    · exact hold p hp
    · exact .inr (by rw [List.mem_singleton.mp hp, ← hn])
  · split
    · exact h
    · show _ ∧ ∀ p ∈ (s.written ++ s.pending) ++ [], _
      rw [List.append_nil]
      exact h
  · show _ ∧ ∀ p ∈ s.written ++ [], _
    apply And.intro hn
    intro p hp
    rw [List.append_nil] at hp
    exact hold p (List.mem_append_left _ hp)
  · exact h

theorem runCmd_ownLines {n : Nat} {old : List (Nat × String)} {cmd : String}
    (h : OwnLines n old s) : OwnLines n old (Augtool.runCmd aug cmd s) :=
  List.foldlRecOn _ _ h fun _ hs _ _ ↦ runLine_ownLines hs

/-- `save` keeps no line that was not there before. -/
theorem save_lines {p : Nat × String}
    (hp : p ∈ (Augtool.save aug s).lines) : p ∈ s.lines := by
  rw [Augtool.save_eq_runLine, Augtool.runLine, aug.kind_save] at hp
  rcases hout : aug.save s.tree s.files with ⟨tree, _ | files⟩
  · rw [hout] at hp
    exact hp
  · rw [hout] at hp
    have hp : p ∈ (s.written ++ s.pending) ++ [] := hp
    rwa [List.append_nil] at hp

end

section

variable {τ φ : Type} {api : NetcfgApi τ φ} {n : Nat} {old : List (Nat × String)}

theorem keeps_runCmd {cmd : String} : Keeps (OwnLines n old) (runCmd api cmd) :=
  keeps_change fun _ ↦ runCmd_ownLines

theorem keeps_augSet {address method name : String} {check : String → Bool}
    {it : String × Json} : Keeps (OwnLines n old) (augSet api address method name check it) := by
  unfold augSet
  apply keeps_ite
  · exact keeps_bind keeps_look fun _ ↦ keeps_bind keeps_runCmd fun _ ↦ keeps_pure
  · exact keeps_pure

theorem keeps_rmStatic {address method : String} :
    Keeps (OwnLines n old) (rmStatic api address method) := by
  unfold rmStatic
  apply keeps_ite
  · exact keeps_bind keeps_runCmd fun _ ↦ keeps_bind keeps_runCmd fun _ ↦ keeps_runCmd
  · exact keeps_pure

theorem keeps_setGateway {address method : String} {it : String × Json} :
    Keeps (OwnLines n old) (setGateway api address method it) := by
  unfold setGateway
  apply keeps_ite
  · apply keeps_ite
    · exact keeps_bind keeps_runCmd fun _ ↦ keeps_pure
    · exact keeps_bind keeps_look fun _ ↦ keeps_bind keeps_runCmd fun _ ↦ keeps_pure
  · exact keeps_pure

theorem keeps_setNameservers {it : String × Json} :
    Keeps (OwnLines n old) (setNameservers api it) := by
  unfold setNameservers
  apply keeps_ite
  · refine keeps_bind keeps_look fun list ↦ ?_
    refine keeps_bind keeps_look fun cmds ↦ ?_
    exact keeps_bind (keeps_forM fun _ ↦ keeps_runCmd) fun _ ↦ keeps_pure
  · exact keeps_pure

theorem keeps_setMember {address method : String} {it : String × Json} :
    Keeps (OwnLines n old) (setMember api address method it) := by
  refine keeps_bind keeps_augSet fun handledMethod ↦ ?_
  refine keeps_bind keeps_look fun method ↦ ?_
  refine keeps_bind keeps_augSet fun handledAddress ↦ ?_
  refine keeps_bind keeps_augSet fun handledNetmask ↦ ?_
  refine keeps_bind keeps_rmStatic fun _ ↦ ?_
  refine keeps_bind keeps_setGateway fun handledGateway ↦ ?_
  refine keeps_bind keeps_setNameservers fun handledNameservers ↦ ?_
  exact keeps_bind keeps_look fun _ ↦ keeps_pure

/-- `save` is the only step of the commit that changes the process. -/
theorem keeps_commitNetcfg {I : Augtool τ φ → Prop} {iface address : String}
    (h : ∀ s, I s → I (Augtool.save api.toAugeas s)) :
    Keeps I (commitNetcfg api iface address) :=
  keeps_bind (keeps_change h) fun _ ↦ keeps_bind keeps_look fun _ ↦ keeps_look

theorem keeps_putNetcfg {req : NetcfgRequest} : Keeps (OwnLines n old) (putNetcfg api req) := by
  refine keeps_bind keeps_look fun c ↦ ?_
  refine keeps_bind (keeps_foldlM fun _ _ ↦ keeps_setMember) fun _ ↦ ?_
  exact keeps_commitNetcfg fun _ ↦ runCmd_ownLines

end

/-! ## When a request is accepted -/

section

variable {τ φ : Type} (api : NetcfgApi τ φ)

/-- The checks that a member has to pass when its interface has the method. -/
structure Settable (method : String) (it : String × Json) : Prop where
  known : it.1 = "method" ∨ it.1 = "address" ∨ it.1 = "netmask" ∨
    (it.1 = "gateway" ∧ method = "static") ∨ it.1 = "nameservers"
  address : it.1 = "address" → (cidrAddress api it.2.getValue).valid = true ∧ method = "static"
  netmask : it.1 = "netmask" →
    isNetmask api (cidrAddress api it.2.getValue) = true ∧ method = "static"
  gateway : it.1 = "gateway" ∧ method = "static" →
    it.2.getValue = "" ∨ (cidrAddress api it.2.getValue).valid = true
  nameservers : it.1 = "nameservers" → ∃ list, nsList api it.2 = .ok list

def runCmds (cmds : List String) (s : Augtool τ φ) : Augtool τ φ :=
  cmds.foldl (fun s cmd ↦ Augtool.runCmd api.toAugeas cmd s) s

/-- The commands for one of the settings that `AUG_SET` sets. -/
def setCommands (address name : String) (it : String × Json) : List String :=
  if it.1 = name then ["set " ++ address ++ "/" ++ name ++ " " ++ it.2.getValue] else []

def rmCommands (address method : String) : List String :=
  if method ≠ "static" then
    ["rm " ++ address ++ "/address", "rm " ++ address ++ "/netmask",
      "rm " ++ address ++ "/gateway"]
  else []

def gatewayCommands (address method : String) (it : String × Json) : List String :=
  if it.1 = "gateway" ∧ method = "static" then
    if it.2.getValue = "" then ["rm " ++ address ++ "/gateway"]
    else ["set " ++ address ++ "/gateway " ++ it.2.getValue]
  else []

def nameserverCommands (tree : τ) (it : String × Json) : List String :=
  if it.1 = "nameservers" then
    match nsList api it.2 with
    | .ok list => dnsCommands api tree list
    | .error _ => []
  else []

/-- What a member that passes its checks does once its method has been set. -/
def afterMember (address method : String) (it : String × Json) (s : Augtool τ φ) :
    Augtool τ φ :=
  let s := runCmds api (setCommands address "address" it ++ setCommands address "netmask" it ++
    rmCommands address method ++ gatewayCommands address method it) s
  runCmds api (nameserverCommands api s.tree it) s

/-- The member passes its checks, and `now` is the method after it. -/
structure Passes (s : Augtool τ φ) (address method : String) (it : String × Json)
    (now : String) : Prop where
  method : it.1 = "method" → rexMethod method = true
  read : augGet api (runCmds api (setCommands address "method" it) s).tree address "method" =
    .ok now
  settable : Settable api now it

/-- All members pass their checks, in the tree that the ones in front leave, and so does what is
saved. -/
def Accepted (iface address : String) : String → List (String × Json) → Augtool τ φ → Prop
  | _, [], s =>
      let s := Augtool.save api.toAugeas s
      checkFiles api s.tree = .ok () ∧ ∃ a, netcfgAnswer api s.tree iface address = .ok a
  | method, it :: rsi, s =>
      ∃ now, Passes api s address method it now ∧
        Accepted iface address now rsi
          (afterMember api address now it (runCmds api (setCommands address "method" it) s))

end

section

variable {τ φ : Type} {api : NetcfgApi τ φ} {s s' : Augtool τ φ}

theorem run_runCmd {cmd : String} :
    run (runCmd api cmd) s = (.ok (), Augtool.runCmd api.toAugeas cmd s) := rfl

@[simp]
theorem runCmds_nil : runCmds api [] s = s := rfl

theorem runCmds_singleton {cmd : String} :
    runCmds api [cmd] s = Augtool.runCmd api.toAugeas cmd s := rfl

theorem runCmds_cons {cmd : String} {cmds : List String} :
    runCmds api (cmd :: cmds) s = runCmds api cmds (runCmds api [cmd] s) := rfl

theorem runCmds_append {cmds cmds' : List String} :
    runCmds api (cmds ++ cmds') s = runCmds api cmds' (runCmds api cmds s) :=
  List.foldl_append

/-- A switch to `static` goes with no other command. -/
theorem afterMember_method {address : String} {it : String × Json} (h : it.1 = "method") :
    afterMember api address "static" it s = s := by
  simp [afterMember, setCommands, rmCommands, gatewayCommands, nameserverCommands, h]

theorem run_augSet_eq_ok {address method name : String} {check : String → Bool}
    {it : String × Json} {b : Bool} :
    run (augSet api address method name check it) s = (.ok b, s') ↔
      (it.1 = name → check it.2.getValue = true) ∧ b = decide (it.1 = name) ∧
        s' = runCmds api (setCommands address name it) s := by
  unfold augSet setCommands
  -- a member with another name is passed over, without a check and without a command
  by_cases h : it.1 = name
  · rw [if_pos h, if_pos h, run_bind_eq_ok, runCmds_singleton]
    simp only [run_look, Prod.mk.injEq, require_eq_ok, run_bind_ok run_runCmd, run_pure,
      Except.ok.injEq]
    constructor
    · rintro ⟨_, _, ⟨hcheck, rfl⟩, hb, hs⟩
      exact ⟨fun _ ↦ hcheck, by rw [← hb, decide_eq_true h], hs.symm⟩
    · rintro ⟨hcheck, hb, hs⟩
      exact ⟨(), s, ⟨hcheck h, rfl⟩, by rw [hb, decide_eq_true h], hs.symm⟩
  · rw [if_neg h, if_neg h, run_pure, runCmds_nil]
    simp only [Prod.mk.injEq, Except.ok.injEq]
    constructor
    · rintro ⟨hb, hs⟩
      exact ⟨fun hn ↦ absurd hn h, by rw [← hb, decide_eq_false h], hs.symm⟩
    · rintro ⟨_, hb, hs⟩
      exact ⟨by rw [hb, decide_eq_false h], hs.symm⟩

theorem run_rmStatic {address method : String} :
    run (rmStatic api address method) s = (.ok (), runCmds api (rmCommands address method) s) := by
  unfold rmStatic rmCommands
  split
  · rfl
  · rfl

theorem run_setGateway_eq_ok {address method : String} {it : String × Json} {b : Bool} :
    run (setGateway api address method it) s = (.ok b, s') ↔
      (it.1 = "gateway" ∧ method = "static" →
        it.2.getValue = "" ∨ (cidrAddress api it.2.getValue).valid = true) ∧
      b = decide (it.1 = "gateway" ∧ method = "static") ∧
        s' = runCmds api (gatewayCommands address method it) s := by
  unfold setGateway gatewayCommands
  by_cases h : it.1 = "gateway" ∧ method = "static"
  · rw [if_pos h, if_pos h, decide_eq_true h]
    by_cases hval : it.2.getValue = ""
    · rw [if_pos hval, if_pos hval, run_bind_ok run_runCmd, run_pure, runCmds_singleton]
      simp only [Prod.mk.injEq, Except.ok.injEq, hval, true_or, implies_true, true_and,
        eq_comm]
    · rw [if_neg hval, if_neg hval, run_bind_eq_ok, runCmds_singleton]
      simp only [run_look, Prod.mk.injEq, require_eq_ok, run_bind_ok run_runCmd, run_pure,
        Except.ok.injEq]
      constructor
      · rintro ⟨_, _, ⟨hvalid, rfl⟩, hb, hs⟩
        exact ⟨fun _ ↦ .inr hvalid, hb.symm, hs.symm⟩
      · rintro ⟨hvalid, hb, hs⟩
        exact ⟨(), s, ⟨(hvalid h).resolve_left hval, rfl⟩, hb.symm, hs.symm⟩
  · rw [if_neg h, if_neg h, run_pure, runCmds_nil, decide_eq_false h]
    simp only [Prod.mk.injEq, Except.ok.injEq, h, false_implies, true_and]
    rw [eq_comm, eq_comm (a := s)]

theorem run_forM_runCmd {cmds : List String} :
    run (cmds.forM (runCmd api)) s = (.ok (), runCmds api cmds s) :=
  run_forM_change

theorem run_setNameservers_eq_ok {it : String × Json} {b : Bool} :
    run (setNameservers api it) s = (.ok b, s') ↔
      (it.1 = "nameservers" → ∃ list, nsList api it.2 = .ok list) ∧
      b = decide (it.1 = "nameservers") ∧
        s' = runCmds api (nameserverCommands api s.tree it) s := by
  unfold setNameservers nameserverCommands
  by_cases h : it.1 = "nameservers"
  · rw [if_pos h, if_pos h, decide_eq_true h]
    cases hlist : nsList api it.2 with
    | error e =>
      rw [run_look_bind]
      simp [h]
    | ok list =>
      simp only [run_look_bind]
      rw [run_bind_ok run_forM_runCmd, run_pure]
      simp [eq_comm]
  · rw [if_neg h, if_neg h, run_pure, runCmds_nil, decide_eq_false h]
    simp only [Prod.mk.injEq, Except.ok.injEq, h, false_implies, true_and]
    rw [eq_comm, eq_comm (a := s)]

/-- A member goes through when it passes its checks. -/
theorem run_setMember_eq_ok {address method now : String} {it : String × Json} :
    run (setMember api address method it) s = (.ok now, s') ↔
      Passes api s address method it now ∧
        s' = afterMember api address now it (runCmds api (setCommands address "method" it) s) := by
  unfold setMember
  simp only [run_bind_eq_ok, run_augSet_eq_ok, run_setGateway_eq_ok, run_setNameservers_eq_ok,
    run_rmStatic, run_look, run_pure, Prod.mk.injEq, require_eq_ok, Except.ok.injEq,
    Bool.and_eq_true, Bool.or_eq_true, decide_eq_true_eq, or_assoc, and_assoc, exists_and_left,
    exists_eq_left, exists_eq_left']
  -- the commands of the steps, one after the other, are those of `afterMember`
  have hafter : ∀ s, afterMember api address now it s =
      runCmds api
        (nameserverCommands api
          (runCmds api (gatewayCommands address now it)
            (runCmds api (rmCommands address now)
              (runCmds api (setCommands address "netmask" it)
                (runCmds api (setCommands address "address" it) s)))).tree it)
        (runCmds api (gatewayCommands address now it)
          (runCmds api (rmCommands address now)
            (runCmds api (setCommands address "netmask" it)
              (runCmds api (setCommands address "address" it) s)))) := by
    intro s
    simp only [afterMember, runCmds_append]
  rw [hafter]
  constructor
  · rintro ⟨hmethod, _, hread, haddress, hnetmask, _, hgateway, hnameservers, hknown, rfl, _, _, hs⟩
    exact ⟨⟨hmethod, hread, ⟨hknown, haddress, hnetmask, hgateway, hnameservers⟩⟩, hs.symm⟩
  · rintro ⟨⟨hmethod, hread, hset⟩, hs⟩
    exact ⟨hmethod, now, hread, hset.address, hset.netmask, trivial, hset.gateway,
      hset.nameservers, hset.known, rfl, (), (), hs.symm⟩

/-- The members go through, and what is saved passes its checks, when all is accepted. -/
theorem goesThrough_members_iff {iface address method : String} {rsi : List (String × Json)} :
    GoesThrough (rsi.foldlM (setMember api address) method >>= fun _ ↦
        commitNetcfg api iface address) s ↔
      Accepted api iface address method rsi s := by
  induction rsi generalizing method s with
  | nil =>
    rw [List.foldlM_nil, pure_bind, commitNetcfg, goesThrough_change_bind,
      goesThrough_look_bind]
    simp only [goesThrough_look, Accepted]
    constructor
    · intro ⟨(), hcheck, hanswer⟩
      exact ⟨hcheck, hanswer⟩
    · intro ⟨hcheck, hanswer⟩
      exact ⟨(), hcheck, hanswer⟩
  | cons it rsi ih =>
    rw [List.foldlM_cons, bind_assoc, goesThrough_bind]
    simp only [run_setMember_eq_ok, ih, Accepted]
    constructor
    · intro ⟨now, _, ⟨hpasses, rfl⟩, hrest⟩
      exact ⟨now, hpasses, hrest⟩
    · intro ⟨now, hpasses, hrest⟩
      exact ⟨now, _, ⟨hpasses, rfl⟩, hrest⟩

/-- A request is answered without an error when it passes the checks in front of its members and
all of them are accepted. -/
theorem goesThrough_putNetcfg_iff {req : NetcfgRequest} :
    GoesThrough (putNetcfg api req) s ↔
      ∃ c, netcfgChange api s.tree req = .ok c ∧
        Accepted api req.iface c.address c.method c.rsi s := by
  unfold putNetcfg
  rw [goesThrough_look_bind]
  simp only [goesThrough_members_iff]

end

/-! ## When a request sets and removes nothing -/

section

variable {τ φ : Type} (api : NetcfgApi τ φ)

/-- The member sets and removes nothing when its interface has the method `now`. -/
structure SilentAt (tree : τ) (now : String) (it : String × Json) : Prop where
  address : it.1 = "address" →
    ¬ ((cidrAddress api it.2.getValue).valid = true ∧ now = "static")
  netmask : it.1 = "netmask" →
    ¬ (isNetmask api (cidrAddress api it.2.getValue) = true ∧ now = "static")
  static : it.1 ≠ "address" → it.1 ≠ "netmask" → now = "static"
  gateway : it.1 = "gateway" →
    ¬ (it.2.getValue = "" ∨ (cidrAddress api it.2.getValue).valid = true)
  nameservers : nameserverCommands api tree it = []

def Silent (s : Augtool τ φ) (address method : String) (it : String × Json) : Prop :=
  if it.1 = "method" then rexMethod method = false
  else ∀ now, augGet api s.tree address "method" = .ok now → SilentAt api s.tree now it

/-- No member up to the first one that is refused sets or removes anything. -/
def Untouched (s : Augtool τ φ) (address : String) : String → List (String × Json) → Prop
  | _, [] => True
  | method, it :: rsi =>
      Silent api s address method it ∧
        ∀ now, Passes api s address method it now → Untouched s address now rsi

/-- What a request must be like for its rejection to leave nothing behind: it is refused in front
of its members, it sets and removes nothing, or it is accepted. -/
def Clean (s : Augtool τ φ) (req : NetcfgRequest) : Prop :=
  ∀ c, netcfgChange api s.tree req = .ok c →
    Untouched api s c.address c.method c.rsi ∨
      Accepted api req.iface c.address c.method c.rsi s

end

section

variable {τ φ : Type} {api : NetcfgApi τ φ} {s : Augtool τ φ}

theorem leaves_augSet {address method name : String} {check : String → Bool}
    {it : String × Json} (h : it.1 = name → ¬ check it.2.getValue = true) :
    Leaves (augSet api address method name check it) s := by
  unfold augSet
  by_cases hname : it.1 = name
  · rw [if_pos hname]
    apply leaves_bind leaves_look
    intro _ hrun
    exact absurd (require_eq_ok.mp (Prod.mk.inj hrun).1) (h hname)
  · rw [if_neg hname]
    exact leaves_pure

theorem leaves_setGateway {address method : String} {it : String × Json}
    (h : it.1 = "gateway" →
      ¬ (it.2.getValue = "" ∨ (cidrAddress api it.2.getValue).valid = true)) :
    Leaves (setGateway api address method it) s := by
  unfold setGateway
  by_cases hname : it.1 = "gateway" ∧ method = "static"
  · have hval := h hname.1
    rw [not_or] at hval
    rw [if_pos hname, if_neg hval.1]
    apply leaves_bind leaves_look
    intro _ hrun
    exact absurd (require_eq_ok.mp (Prod.mk.inj hrun).1) hval.2
  · rw [if_neg hname]
    exact leaves_pure

theorem leaves_setNameservers {it : String × Json} (h : nameserverCommands api s.tree it = []) :
    Leaves (setNameservers api it) s := by
  unfold setNameservers
  by_cases hname : it.1 = "nameservers"
  · rw [if_pos hname]
    apply leaves_bind leaves_look
    intro list hlist
    have hlist : nsList api it.2 = .ok list := (Prod.mk.inj hlist).1
    apply leaves_bind leaves_look
    intro cmds hcmds
    rw [nameserverCommands, if_pos hname, hlist] at h
    have hcmds : dnsCommands api s.tree list = cmds := Except.ok.inj (Prod.mk.inj hcmds).1
    -- a list without an interface to set it for makes no command
    rw [← hcmds, show dnsCommands api s.tree list = [] from h]
    exact leaves_pure
  · rw [if_neg hname]
    exact leaves_pure

theorem leaves_setMember {address method : String} {it : String × Json}
    (h : Silent api s address method it) : Leaves (setMember api address method it) s := by
  unfold Silent at h
  apply leaves_bind
  · apply leaves_augSet
    intro hname
    rw [if_pos hname] at h
    exact Bool.not_eq_true _ ▸ h
  intro handledMethod hrun
  have hmethod := (run_augSet_eq_ok.mp hrun).1
  -- a method that is legal would be set, so behind its check the member is another one
  have hne : it.1 ≠ "method" := by
    intro hname
    rw [if_pos hname, hmethod hname] at h
    exact Bool.noConfusion h
  rw [if_neg hne] at h
  apply leaves_bind leaves_look
  intro now hread
  have hsilent := h now (Prod.mk.inj hread).1
  apply leaves_bind
  · apply leaves_augSet
    intro hname
    rw [Bool.and_eq_true, decide_eq_true_eq]
    exact hsilent.address hname
  intro handledAddress hrun
  have hneAddress : it.1 ≠ "address" := by
    intro hname
    have hcheck := (run_augSet_eq_ok.mp hrun).1 hname
    rw [Bool.and_eq_true, decide_eq_true_eq] at hcheck
    exact hsilent.address hname hcheck
  apply leaves_bind
  · apply leaves_augSet
    intro hname
    rw [Bool.and_eq_true, decide_eq_true_eq]
    exact hsilent.netmask hname
  intro handledNetmask hrun
  have hneNetmask : it.1 ≠ "netmask" := by
    intro hname
    have hcheck := (run_augSet_eq_ok.mp hrun).1 hname
    rw [Bool.and_eq_true, decide_eq_true_eq] at hcheck
    exact hsilent.netmask hname hcheck
  apply leaves_bind
  · rw [rmStatic, if_neg (not_not_intro (hsilent.static hneAddress hneNetmask))]
    exact leaves_pure
  intro _ _
  apply leaves_bind (leaves_setGateway hsilent.gateway)
  intro handledGateway _
  apply leaves_bind (leaves_setNameservers hsilent.nameservers)
  intro handledNameservers _
  exact leaves_bind leaves_look fun _ _ ↦ leaves_pure

theorem leaves_members {address method : String} {rsi : List (String × Json)}
    (h : Untouched api s address method rsi) :
    Leaves (rsi.foldlM (setMember api address) method) s := by
  induction rsi generalizing method with
  | nil => exact leaves_pure
  | cons it rsi ih =>
    rw [List.foldlM_cons]
    apply leaves_bind (leaves_setMember h.1)
    intro now hrun
    exact ih (h.2 now (run_setMember_eq_ok.mp hrun).1)

theorem run_putNetcfg {req : NetcfgRequest} :
    run (putNetcfg api req) s = match netcfgChange api s.tree req with
      | .ok c =>
          run (c.rsi.foldlM (setMember api c.address) c.method >>= fun _ ↦
            commitNetcfg api req.iface c.address) s
      | .error e => (.error e, s) := by
  rw [putNetcfg, run_look_bind]
  cases netcfgChange api s.tree req with
  | ok c => rfl
  | error e => rfl

/-- A request that sets and removes nothing keeps no line that was not there before. -/
theorem putNetcfg_lines_of_untouched {req : NetcfgRequest} {c : NetcfgChange}
    (hc : netcfgChange api s.tree req = .ok c)
    (h : Untouched api s c.address c.method c.rsi) {p : Nat × String}
    (hp : p ∈ (run (putNetcfg api req) s).2.lines) : p ∈ s.lines := by
  rw [run_putNetcfg, hc] at hp
  dsimp only at hp
  have hleaves : (run (c.rsi.foldlM (setMember api c.address) c.method) s).2 = s :=
    leaves_members h
  rcases hrun : run (c.rsi.foldlM (setMember api c.address) c.method) s with ⟨e | now, s'⟩
  · rw [hrun] at hleaves
    obtain rfl : s' = s := hleaves
    rw [run_bind_error hrun] at hp
    exact hp
  · rw [hrun] at hleaves
    obtain rfl : s' = s := hleaves
    rw [run_bind_ok hrun] at hp
    have hkeeps : Keeps (fun t ↦ ∀ p ∈ t.lines, p ∈ s'.lines)
        (commitNetcfg api req.iface c.address) :=
      keeps_commitNetcfg fun t ht p hp ↦ ht p (save_lines hp)
    exact hkeeps s' (fun _ hp ↦ hp) p hp

theorem netcfgStep_request {req : NetcfgRequest} :
    (netcfgStep api s req).1.request = s.request + 1 := by
  have hstart : OwnLines s.request s.lines s := ⟨rfl, fun _ hp ↦ .inl hp⟩
  have hkeeps : OwnLines s.request s.lines (run (putNetcfg api req) s).2 :=
    keeps_putNetcfg s hstart
  exact congrArg (· + 1) hkeeps.1

theorem clean_of_goesThrough {req : NetcfgRequest} (h : GoesThrough (putNetcfg api req) s) :
    Clean api s req := by
  intro c hc
  have ⟨c', hc', haccepted⟩ := goesThrough_putNetcfg_iff.mp h
  obtain rfl : c' = c := Except.ok.inj (hc'.symm.trans hc)
  exact .inr haccepted

/-- What a clean request leaves behind is there already, or the request is accepted. -/
theorem netcfgStep_lines {req : NetcfgRequest} (h : Clean api s req) {p : Nat × String}
    (hp : p ∈ (netcfgStep api s req).1.lines) :
    p ∈ s.lines ∨ p.1 = s.request ∧ ∃ a, (netcfgStep api s req).2 = .ok a := by
  have hp : p ∈ (run (putNetcfg api req) s).2.lines := hp
  cases hc : netcfgChange api s.tree req with
  | error e =>
    rw [run_putNetcfg, hc] at hp
    exact .inl hp
  | ok c =>
    rcases h c hc with huntouched | haccepted
    · exact .inl (putNetcfg_lines_of_untouched hc huntouched hp)
    · have ⟨a, s', hrun⟩ := goesThrough_putNetcfg_iff.mpr ⟨c, hc, haccepted⟩
      have hstart : OwnLines s.request s.lines s := ⟨rfl, fun _ hp ↦ .inl hp⟩
      have hkeeps : OwnLines s.request s.lines (run (putNetcfg api req) s).2 :=
        keeps_putNetcfg s hstart
      rcases hkeeps.2 p hp with hold | hown
      · exact .inl hold
      · exact .inr ⟨hown, a, congrArg Prod.fst hrun⟩

end

/-! ## Runs -/

section

variable {τ φ : Type} (api : NetcfgApi τ φ) (files : φ)

/-- The process after some requests, which all use the same one. -/
def served (reqs : List NetcfgRequest) : Augtool τ φ :=
  final (netcfgStep api) (Augtool.start api.toAugeas files) reqs

/-- What the requests are answered. -/
def responses (reqs : List NetcfgRequest) : List (Except Thrown NetcfgAnswer) :=
  answers (netcfgStep api) (Augtool.start api.toAugeas files) reqs

/-- No command of a request that is answered with an error is in the files. -/
def NeverWritten (reqs : List NetcfgRequest) : Prop :=
  ∀ i line, (i, line) ∈ (served api files reqs).written →
    ∀ e, (responses api files reqs)[i]? ≠ some (.error e)

end

section

variable {τ φ : Type} {api : NetcfgApi τ φ} {files : φ} {reqs : List NetcfgRequest}

theorem served_request : (served api files reqs).request = reqs.length := by
  induction reqs using List.reverseRecOn with
  | nil => rfl
  | append_singleton reqs req ih =>
    rw [served, final_concat, netcfgStep_request, List.length_append]
    exact congrArg (· + 1) ih

/-- The lines that are kept belong to accepted requests. -/
theorem accepted_of_mem_lines
    (h : EveryTime (fun before req ↦ Clean api (served api files before) req) reqs)
    {p : Nat × String} (hp : p ∈ (served api files reqs).lines) :
    ∃ a, (responses api files reqs)[p.1]? = some (.ok a) := by
  induction reqs using List.reverseRecOn with
  | nil => exact absurd hp List.not_mem_nil
  | append_singleton reqs req ih =>
    have ⟨hreqs, hreq⟩ := everyTime_concat.mp h
    rw [served, final_concat] at hp
    rw [responses, answers_concat]
    rcases netcfgStep_lines hreq hp with hold | ⟨hown, a, ha⟩
    · have ⟨a, ha⟩ := ih hreqs hold
      have hlt := (List.getElem?_eq_some_iff.mp ha).1
      exact ⟨a, (List.getElem?_append_left hlt).trans ha⟩
    · use a
      have hown : p.1 = reqs.length := hown.trans served_request
      rw [hown, List.getElem?_append_right (by rw [length_answers]), length_answers,
        Nat.sub_self]
      exact congrArg some ha

/-- When every request of a run is clean, then at no time of the run a command of a rejected one is
in the files. -/
theorem neverWritten_of_clean
    (h : EveryTime (fun before req ↦ Clean api (served api files before) req) reqs) :
    ∀ before after, reqs = before ++ after → NeverWritten api files before := by
  intro before after heq i line hline e he
  subst heq
  have hmem : (i, line) ∈ (served api files before).lines := List.mem_append_left _ hline
  have ⟨a, ha⟩ := accepted_of_mem_lines (everyTime_of_append h) hmem
  have ha : (responses api files before)[i]? = some (.ok a) := ha
  rw [ha] at he
  cases he

end

/-! ## The commands of a setting -/

/-- What goes with the method `static` only. -/
def staticNames : List String := ["address", "netmask", "gateway"]

def settingNames : List String := "method" :: staticNames

def WordChar (c : Char) : Prop := c.isAlphanum = true ∨ c ∈ ['.', ':', '/', '-', '_']
deriving Decidable

/-- A text that is one word of a command. -/
def Word (text : String) : Prop := text ≠ "" ∧ ∀ c ∈ text.toList, WordChar c

instance (text : String) : Decidable (Word text) :=
  have := List.decidableBAll WordChar text.toList
  inferInstanceAs (Decidable (_ ∧ _))

section

variable {τ φ : Type} {api : NetcfgApi τ φ} {s : Augtool τ φ}

theorem runCmds_edit {cmd : String} (hkind : api.kind cmd = .edit) (hline : '\n' ∉ cmd.toList) :
    runCmds api [cmd] s =
      { s with
        tree := api.edit s.tree cmd
        pending := s.pending ++ [(s.request, cmd)] } := by
  show (Augtool.commandLines cmd).foldl (Augtool.runLine api.toAugeas) s = _
  rw [Augtool.commandLines_line hline, List.foldl_cons, List.foldl_nil, Augtool.runLine, hkind]

theorem not_wordChar_newline : ¬ WordChar '\n' := by decide

theorem Word.line {text : String} (h : Word text) : '\n' ∉ text.toList :=
  fun hmem ↦ not_wordChar_newline (h.2 _ hmem)

theorem kind_set_cmd (path name value : String) :
    api.kind ("set " ++ path ++ "/" ++ name ++ " " ++ value) = .edit := by
  rw [String.append_assoc, String.append_assoc, String.append_assoc, String.append_assoc]
  exact api.kind_set _

theorem set_line {path name value : String} (hpath : '\n' ∉ path.toList)
    (hname : name ∈ settingNames) (hvalue : Word value) :
    '\n' ∉ ("set " ++ path ++ "/" ++ name ++ " " ++ value).toList := by
  have hname : '\n' ∉ name.toList := by
    revert hname name
    decide
  simp only [String.toList_append, List.mem_append, not_or]
  exact ⟨⟨⟨⟨⟨by decide, hpath⟩, by decide⟩, hname⟩, by decide⟩, hvalue.line⟩

theorem setting_path_inj {path name name' : String} :
    path ++ "/" ++ name = path ++ "/" ++ name' ↔ name = name' := by
  constructor
  · intro h
    have h := congrArg String.toList h
    simp only [String.toList_append, List.append_assoc] at h
    exact String.toList_injective (List.append_cancel_left (List.append_cancel_left h))
  · rintro rfl
    rfl

/-- Nothing but a `save` changes the process once the members are set. -/
theorem run_commitNetcfg {iface address : String} :
    (run (commitNetcfg api iface address) s).2 = Augtool.save api.toAugeas s := by
  have hleaves : Leaves (look (fun s ↦ checkFiles api s.tree) >>= fun _ ↦
      look fun s ↦ netcfgAnswer api s.tree iface address) (Augtool.save api.toAugeas s) :=
    leaves_bind leaves_look fun _ _ ↦ leaves_look
  exact hleaves

end

section

variable {τ φ : Type} {api : NetcfgApi τ φ} {it : String × Json}

/-- For the method itself, only what it replaces is checked. -/
theorem settable_method (h : it.1 = "method") (method : String) : Settable api method it where
  known := Or.inl h
  address hit := absurd (h.symm.trans hit) (by decide)
  netmask hit := absurd (h.symm.trans hit) (by decide)
  gateway hit := absurd (h.symm.trans hit.1) (by decide)
  nameservers hit := absurd (h.symm.trans hit) (by decide)

end

/-! ## An interface -/

/-- Paths and their values. -/
abbrev PlainTree := List (String × String)

def plainKind (line : String) : LineKind :=
  if "set ".toList <+: line.toList ∨ "rm ".toList <+: line.toList then .edit
  else if line = "save" then .save
  else if line = "load" then .load
  else .other

def plainWords (sep : Char) (text : String) : List String :=
  (text.toList.splitOn sep).map String.ofList

def plainEdit (tree : PlainTree) (line : String) : PlainTree :=
  match plainWords ' ' line with
  | ["set", path, value] => tree.filter (·.1 ≠ path) ++ [(path, value)]
  | ["rm", path] => tree.filter (·.1 ≠ path)
  | _ => tree

/-- The nodes of the interfaces end with `]`. -/
def plainMatch (tree : PlainTree) (pattern : String) : PlainTree :=
  if "dns-nameservers".toList <:+ pattern.toList then
    tree.filter fun p ↦ "dns-nameservers".toList <:+ p.1.toList
  else
    tree.filter fun p ↦ "]".toList <:+ p.1.toList

def plainOutput (tree : PlainTree) (cmd : String) : List String :=
  let lines : List String := match plainWords ' ' cmd with
    | ["get", path] =>
        match tree.lookup path with
        | some value => [path ++ " = " ++ value]
        | none => [path ++ " (o)"]
    | ["match", pattern, value] =>
        ((plainMatch tree pattern).filter fun p ↦ p.2 = value).map Prod.fst
    | ["match", pattern] => (plainMatch tree pattern).map fun p ↦ p.1 ++ " = " ++ p.2
    | _ => []
  cmd :: lines ++ ["augtool> "]

def plainNetcfg : NetcfgApi PlainTree PlainTree where
  kind := plainKind
  edit := plainEdit
  load := id
  save := fun tree _ ↦ (tree, some tree)
  output := plainOutput
  kind_save := by decide
  kind_set := by
    intro rest
    rw [plainKind, if_pos]
    rw [String.toList_append]
    exact .inl (List.prefix_append _ _)
  kind_rm := by
    intro rest
    rw [plainKind, if_pos]
    rw [String.toList_append]
    exact .inr (List.prefix_append _ _)
  split := fun text ↦ if text = "" then [] else plainWords ' ' text
  cidrFromStr := fun text ↦ if text = "10.0.0.5" then some (.single .ipv4 0x0a000005) else none
  cidrToStr := fun _ ↦ ""
  jsonify := id

def plainInterfaces : PlainTree :=
  [("/files/etc/network/interfaces/iface[1]", "eth0"),
    ("/files/etc/network/interfaces/iface[1]/method", "static"),
    ("/files/etc/network/interfaces/iface[1]/dns-nameservers", "8.8.8.8")]

def eth0Request (members : List (String × Json)) : NetcfgRequest where
  permitted := true
  iface := "eth0"
  body := .ok (.object [("eth0", .object members)])

/-! What the commands do to such a tree, and what they print of it. -/

section

variable {tree : PlainTree} {address : String}

theorem plainWords_word {word : String} (h : ' ' ∉ word.toList) : plainWords ' ' word = [word] := by
  unfold plainWords
  rw [List.splitOn_eq_singleton h]
  simp

theorem plainWords_blank {word : String} (h : ' ' ∉ word.toList) (rest : String) :
    plainWords ' ' (word ++ " " ++ rest) = word :: plainWords ' ' rest := by
  have hlist : (word ++ " " ++ rest).toList = word.toList ++ ' ' :: rest.toList := by
    simp only [String.toList_append, List.append_assoc]
    rfl
  unfold plainWords
  rw [hlist, List.splitOn_append_cons_self_of_not_mem h]
  simp

theorem plain_cmdOut {cmd sep text : String} {keyValue : Bool}
    (h : getCmdOut (plainOutput tree cmd) keyValue sep = some text) :
    cmdOut plainNetcfg tree cmd keyValue sep = .ok text :=
  congrArg (orThrow · Thrown.outOfRange) h

theorem plain_checkFiles (tree : PlainTree) : checkFiles plainNetcfg tree = .ok () := by
  have hread {path : String} (h : ' ' ∉ path.toList) :
      cmdOut plainNetcfg tree ("ls" ++ " " ++ path) true "" = .ok "" := by
    apply plain_cmdOut
    unfold plainOutput
    rw [plainWords_blank (by decide), plainWords_word h]
    rfl
  have hinterfaces : cmdOut plainNetcfg tree "ls /augeas/files/etc/network/interfaces/error" true
      "" = .ok "" := by
    rw [show "ls /augeas/files/etc/network/interfaces/error" =
      "ls" ++ " " ++ "/augeas/files/etc/network/interfaces/error" by decide]
    apply hread
    rw [String.toList_ofList]
    decide
  have hresolv : cmdOut plainNetcfg tree "ls /augeas/files/etc/resolv.conf/error" true
      "" = .ok "" := by
    rw [show "ls /augeas/files/etc/resolv.conf/error" =
      "ls" ++ " " ++ "/augeas/files/etc/resolv.conf/error" by decide]
    apply hread
    rw [String.toList_ofList]
    decide
  rw [checkFiles, hinterfaces, hresolv]
  rfl

theorem plainMatch_set {path value pattern : String}
    (hnode : ¬ "]".toList <:+ path.toList) (hdns : ¬ "dns-nameservers".toList <:+ path.toList) :
    plainMatch (tree.filter (·.1 ≠ path) ++ [(path, value)]) pattern = plainMatch tree pattern := by
  have hkeeps {tail : List Char} (h : ¬ tail <:+ path.toList) :
      (tree.filter (·.1 ≠ path) ++ [(path, value)]).filter (fun p ↦ tail <:+ p.1.toList) =
        tree.filter fun p ↦ tail <:+ p.1.toList := by
    rw [List.filter_append, List.filter_filter, List.filter_cons_of_neg (by simpa using h),
      List.filter_nil, List.append_nil]
    apply List.filter_congr
    intro p _
    by_cases hp : tail <:+ p.1.toList
    · have hne : p.1 ≠ path := by
        rintro rfl
        exact h hp
      simp [hp, hne]
    · simp [hp]
  unfold plainMatch
  split
  · exact hkeeps hdns
  · exact hkeeps hnode

/-- A tail without a slash lies in the last part of a path. -/
theorem suffix_of_setting_path {tail : List Char} (h : '/' ∉ tail) {name : String}
    (hsuffix : tail <:+ (address ++ "/" ++ name).toList) : tail <:+ name.toList := by
  have hlist : (address ++ "/" ++ name).toList = address.toList ++ '/' :: name.toList := by
    simp only [String.toList_append, List.append_assoc]
    rfl
  rw [hlist] at hsuffix
  rcases List.suffix_or_suffix_of_suffix hsuffix (List.suffix_append _ _) with hinside | hlonger
  · rcases List.suffix_cons_iff.mp hinside with rfl | hname
    · exact absurd List.mem_cons_self h
    · exact hname
  · exact absurd (hlonger.subset List.mem_cons_self) h

end

/-- The tree has one interface, with the method `static` and a name server. -/
structure PlainAt (address : String) (tree : PlainTree) : Prop where
  ne : address ≠ ""
  line : '\n' ∉ address.toList
  blank : ' ' ∉ address.toList
  equals : '=' ∉ address.toList
  interface : (plainMatch tree "/files/etc/network/interfaces/iface[*]").filter
    (fun p ↦ p.2 = "eth0") = [(address, "eth0")]
  method : tree.lookup (address ++ "/" ++ "method") = some "static"
  servers : plainMatch tree "/files/etc/network/interfaces/iface[*]/dns-nameservers" =
    [(address ++ "/dns-nameservers", "8.8.8.8")]

/-- The process after the command for a setting. -/
def plainSet (address name value : String) (s : Augtool PlainTree PlainTree) :
    Augtool PlainTree PlainTree :=
  { s with
    tree := s.tree.filter (·.1 ≠ address ++ "/" ++ name) ++ [(address ++ "/" ++ name, value)]
    pending := s.pending ++ [(s.request, "set " ++ address ++ "/" ++ name ++ " " ++ value)] }

namespace PlainAt

section

variable {tree : PlainTree} {address : String}

theorem get (h : PlainAt address tree) {name : String} (hname : name ∈ settingNames) :
    augGet plainNetcfg tree address name =
      .ok ((tree.lookup (address ++ "/" ++ name)).getD "") := by
  have hword : ∀ name ∈ settingNames, ' ' ∉ name.toList ∧ '=' ∉ name.toList := by decide
  have hblank : ' ' ∉ (address ++ "/" ++ name).toList := by
    simp only [String.toList_append, List.mem_append, not_or]
    exact ⟨⟨h.blank, by decide⟩, (hword name hname).1⟩
  have hequals : '=' ∉ (address ++ "/" ++ name).toList := by
    simp only [String.toList_append, List.mem_append, not_or]
    exact ⟨⟨h.equals, by decide⟩, (hword name hname).2⟩
  have hcmd : "get " ++ address ++ "/" ++ name = "get" ++ " " ++ (address ++ "/" ++ name) := by
    rw [show "get" ++ " " = "get " by decide]
    simp only [String.append_assoc]
  have hwords : plainWords ' ' ("get " ++ address ++ "/" ++ name) =
      ["get", address ++ "/" ++ name] := by
    rw [hcmd, plainWords_blank (by decide), plainWords_word hblank]
  apply plain_cmdOut
  unfold plainOutput
  rw [hwords]
  cases hvalue : tree.lookup (address ++ "/" ++ name) with
  | none =>
    simp only [hvalue]
    exact getCmdOut_unset _ _ hequals
  | some value =>
    simp only [hvalue]
    exact getCmdOut_value _ _ value hequals

theorem get_method (h : PlainAt address tree) :
    augGet plainNetcfg tree address "method" = .ok "static" := by
  rw [h.get (by decide), h.method]
  rfl

/-- What is read in front of the members. -/
theorem netcfgChange_eq (h : PlainAt address tree) (members : List (String × Json)) :
    netcfgChange plainNetcfg tree (eth0Request members) = .ok ⟨address, "static", members⟩ := by
  have hpath : cmdOut plainNetcfg tree
      ("match /files/etc/network/interfaces/iface[*] " ++ "eth0") false "" = .ok address := by
    have hwords : plainWords ' ' ("match /files/etc/network/interfaces/iface[*] " ++ "eth0") =
        ["match", "/files/etc/network/interfaces/iface[*]", "eth0"] := by
      unfold plainWords
      rw [String.toList_append, String.toList_ofList, String.toList_ofList]
      rfl
    apply plain_cmdOut
    unfold plainOutput
    rw [hwords]
    simp only [h.interface]
    exact getCmdOut_path _ _ h.equals
  simp only [netcfgChange, bind_eq_ok, pure_eq_ok, require_eq_ok, mapError_eq_ok, orThrow_eq_ok,
    exists_const]
  exact ⟨rfl, (), plain_checkFiles tree, show "eth0" ≠ "" by decide,
    show rexIface "eth0" = true by decide, address, hpath, h.ne, _, h.get_method, _, rfl, _, rfl,
    rfl⟩

theorem netcfgAnswer_ok (h : PlainAt address tree) :
    ∃ a, netcfgAnswer plainNetcfg tree "eth0" address = .ok a := by
  have hdns : cmdOut plainNetcfg tree
      "match /files/etc/network/interfaces/iface[*]/dns-nameservers" true " " =
        .ok "8.8.8.8" := by
    have hwords : plainWords ' ' "match /files/etc/network/interfaces/iface[*]/dns-nameservers" =
        ["match", "/files/etc/network/interfaces/iface[*]/dns-nameservers"] := by
      unfold plainWords
      rw [String.toList_ofList]
      rfl
    have hequals : '=' ∉ (address ++ "/dns-nameservers").toList := by
      rw [String.toList_append, List.mem_append, not_or]
      exact ⟨h.equals, by decide⟩
    apply plain_cmdOut
    unfold plainOutput
    rw [hwords]
    simp only [h.servers]
    exact getCmdOut_value _ _ _ hequals
  have hget (name : String) (hname : name ∈ settingNames) := h.get hname
  simp only [netcfgAnswer, bind_eq_ok, pure_eq_ok, require_eq_ok, exists_const]
  exact ⟨_, _, hget "method" (by decide), _, hget "address" (by decide), _,
    hget "netmask" (by decide), _, hget "gateway" (by decide), _, hdns, by decide +kernel, rfl⟩

end

section

variable {address : String} {s : Augtool PlainTree PlainTree}

theorem set (h : PlainAt address s.tree) (name value : String) (hname : name ∈ settingNames)
    (hmethod : name = "method" → value = "static") :
    PlainAt address (plainSet address name value s).tree := by
  have hends : ∀ name ∈ settingNames,
      ¬ "]".toList <:+ name.toList ∧ ¬ "dns-nameservers".toList <:+ name.toList := by decide
  have hmatch (pattern : String) :
      plainMatch (plainSet address name value s).tree pattern = plainMatch s.tree pattern := by
    apply plainMatch_set
    · exact fun hsuffix ↦ (hends name hname).1 (suffix_of_setting_path (by decide) hsuffix)
    · exact fun hsuffix ↦ (hends name hname).2 (suffix_of_setting_path (by decide) hsuffix)
  have hinterface := h.interface
  have hservers := h.servers
  rw [← hmatch] at hinterface hservers
  have hlookup : (plainSet address name value s).tree.lookup (address ++ "/" ++ "method") =
      some "static" := by
    rw [plainSet, AssocList.lookup_put]
    split
    · rename_i hpath
      rw [hmethod (setting_path_inj.mp hpath).symm]
    · exact h.method
  exact ⟨h.ne, h.line, h.blank, h.equals, hinterface, hlookup, hservers⟩

theorem runCmds_set (h : PlainAt address s.tree) {name value : String}
    (hname : name ∈ settingNames) (hvalue : Word value) :
    runCmds plainNetcfg ["set " ++ address ++ "/" ++ name ++ " " ++ value] s =
      plainSet address name value s := by
  have hword : ∀ name ∈ settingNames, ' ' ∉ name.toList := by decide
  have hblank : ' ' ∉ (address ++ "/" ++ name).toList := by
    simp only [String.toList_append, List.mem_append, not_or]
    exact ⟨⟨h.blank, by decide⟩, hword name hname⟩
  have hvalueBlank : ' ' ∉ value.toList := fun hmem ↦ absurd (hvalue.2 _ hmem) (by decide)
  have hcmd : "set " ++ address ++ "/" ++ name ++ " " ++ value =
      "set" ++ " " ++ (address ++ "/" ++ name ++ " " ++ value) := by
    rw [show "set" ++ " " = "set " by decide]
    simp only [String.append_assoc]
  have hwords : plainWords ' ' ("set " ++ address ++ "/" ++ name ++ " " ++ value) =
      ["set", address ++ "/" ++ name, value] := by
    rw [hcmd, plainWords_blank (by decide), plainWords_blank hblank, plainWords_word hvalueBlank]
  have hedit : plainNetcfg.edit s.tree ("set " ++ address ++ "/" ++ name ++ " " ++ value) =
      s.tree.filter (·.1 ≠ address ++ "/" ++ name) ++ [(address ++ "/" ++ name, value)] := by
    show plainEdit s.tree _ = _
    unfold plainEdit
    rw [hwords]
    rfl
  rw [runCmds_edit (kind_set_cmd _ _ _) (set_line h.line hname hvalue), hedit, plainSet]

/-- A member that no check knows is refused. -/
theorem run_bogus (h : PlainAt address s.tree) :
    run (setMember plainNetcfg address "static" ("bogus", .int 1)) s =
      (.error (.bios "bad-request-document" "Invalid option 'bogus'"), s) := by
  have hset (method name : String) (check : String → Bool) (hne : "bogus" ≠ name) :
      run (augSet plainNetcfg address method name check ("bogus", .int 1)) s = (.ok false, s) := by
    rw [augSet, if_neg hne, run_pure]
  have hlook : run (look fun s ↦ augGet plainNetcfg s.tree address "method" :
      AugProg PlainTree PlainTree String) s = (.ok "static", s) := by
    rw [run_look, h.get_method]
  have hrm : run (rmStatic plainNetcfg address "static") s = (.ok (), s) := by
    rw [rmStatic, if_neg (by decide), run_pure]
  have hgateway : run (setGateway plainNetcfg address "static" ("bogus", .int 1)) s =
      (.ok false, s) := by
    rw [setGateway, if_neg (by decide), run_pure]
  have hnameservers : run (setNameservers plainNetcfg ("bogus", .int 1)) s = (.ok false, s) := by
    rw [setNameservers, if_neg (by decide), run_pure]
  unfold setMember
  rw [run_bind_ok (hset _ _ _ (by decide)), run_bind_ok hlook,
    run_bind_ok (hset _ _ _ (by decide)), run_bind_ok (hset _ _ _ (by decide)),
    run_bind_ok hrm, run_bind_ok hgateway, run_bind_ok hnameservers]
  rfl

theorem run_address (h : PlainAt address s.tree) :
    run (setMember plainNetcfg address "static" ("address", .str "10.0.0.5")) s =
      (.ok "static", plainSet address "address" "10.0.0.5" s) := by
  have hsettable : Settable plainNetcfg "static" ("address", .str "10.0.0.5") :=
    { known := .inr (.inl rfl)
      address := fun _ ↦ by decide
      netmask := fun hit ↦ absurd hit (by decide)
      gateway := fun hit ↦ absurd hit.1 (by decide)
      nameservers := fun hit ↦ absurd hit (by decide) }
  have hcommands : setCommands address "address" ("address", .str "10.0.0.5") ++
      setCommands address "netmask" ("address", .str "10.0.0.5") ++ rmCommands address "static" ++
        gatewayCommands address "static" ("address", .str "10.0.0.5") =
      ["set " ++ address ++ "/" ++ "address" ++ " " ++ "10.0.0.5"] := rfl
  have hnameservers (tree : PlainTree) :
      nameserverCommands plainNetcfg tree ("address", .str "10.0.0.5") = [] :=
    if_neg (by decide)
  refine run_setMember_eq_ok.mpr ⟨⟨fun hit ↦ absurd hit (by decide), h.get_method, hsettable⟩, ?_⟩
  rw [setCommands, if_neg (by decide), runCmds_nil, afterMember, hcommands, hnameservers,
    runCmds_nil, h.runCmds_set (by decide) (by decide)]

theorem run_method (h : PlainAt address s.tree) :
    run (setMember plainNetcfg address "static" ("method", .str "static")) s =
      (.ok "static", plainSet address "method" "static" s) := by
  have hset : runCmds plainNetcfg (setCommands address "method" ("method", .str "static")) s =
      plainSet address "method" "static" s := h.runCmds_set (by decide) (by decide)
  have hat := h.set "method" "static" (by decide) fun _ ↦ rfl
  rw [run_setMember_eq_ok, hset, afterMember_method rfl]
  exact ⟨⟨fun _ ↦ by decide, by rw [hset]; exact hat.get_method, settable_method rfl _⟩, rfl⟩

end

end PlainAt

theorem plainInterfaces_at :
    PlainAt "/files/etc/network/interfaces/iface[1]" plainInterfaces where
  ne := by decide
  line := by
    rw [String.toList_ofList]
    decide
  blank := by
    rw [String.toList_ofList]
    decide
  equals := by
    rw [String.toList_ofList]
    decide
  interface := by
    unfold plainMatch plainInterfaces
    simp only [List.filter_cons, List.filter_nil]
    -- the literals one after the other
    rw [String.toList_ofList, String.toList_ofList, String.toList_ofList, String.toList_ofList,
      String.toList_ofList, String.toList_ofList]
    rfl
  method := by
    rw [show "/files/etc/network/interfaces/iface[1]" ++ "/" ++ "method" =
      "/files/etc/network/interfaces/iface[1]/method" by decide]
    decide
  servers := by
    unfold plainMatch plainInterfaces
    simp only [List.filter_cons, List.filter_nil]
    rw [String.toList_ofList, String.toList_ofList, String.toList_ofList, String.toList_ofList,
      String.toList_ofList, String.toList_ofList]
    rfl

def halfRequests : List NetcfgRequest :=
  [eth0Request [("address", .str "10.0.0.5"), ("bogus", .int 1)],
    eth0Request [("method", .str "static")]]

section

variable {address : String} {s : Augtool PlainTree PlainTree}

/-- A request that is refused at its second member has set the address. -/
theorem PlainAt.half_step (h : PlainAt address s.tree) :
    netcfgStep plainNetcfg s (eth0Request [("address", .str "10.0.0.5"), ("bogus", .int 1)]) =
      ({ plainSet address "address" "10.0.0.5" s with request := s.request + 1 },
        .error (.bios "bad-request-document" "Invalid option 'bogus'")) := by
  have hat := h.set "address" "10.0.0.5" (by decide) fun hname ↦
    absurd hname (by decide)
  have hmembers : run ([("address", .str "10.0.0.5"), ("bogus", .int 1)].foldlM
      (setMember plainNetcfg address) "static") s =
        (.error (.bios "bad-request-document" "Invalid option 'bogus'"),
          plainSet address "address" "10.0.0.5" s) := by
    rw [List.foldlM_cons, run_bind_ok h.run_address, List.foldlM_cons,
      run_bind_error hat.run_bogus]
  have hrun : run (putNetcfg plainNetcfg
      (eth0Request [("address", .str "10.0.0.5"), ("bogus", .int 1)])) s =
        (.error (.bios "bad-request-document" "Invalid option 'bogus'"),
          plainSet address "address" "10.0.0.5" s) := by
    rw [run_putNetcfg, h.netcfgChange_eq]
    exact run_bind_error hmembers
  unfold netcfgStep
  rw [hrun]
  rfl

/-- A request for the method saves what is there. -/
theorem PlainAt.static_step (h : PlainAt address s.tree) :
    (netcfgStep plainNetcfg s (eth0Request [("method", .str "static")])).1.written =
      s.written ++ (plainSet address "method" "static" s).pending := by
  have hmembers : run ([("method", .str "static")].foldlM
      (setMember plainNetcfg address) "static") s =
        (.ok "static", plainSet address "method" "static" s) := by
    rw [List.foldlM_cons, run_bind_ok h.run_method, List.foldlM_nil, run_pure]
  have hsaves (s : Augtool PlainTree PlainTree) :
      (Augtool.save plainNetcfg.toAugeas s).written = s.written ++ s.pending :=
    Augtool.save_written rfl
  have hrun : (run (putNetcfg plainNetcfg (eth0Request [("method", .str "static")])) s).2 =
      Augtool.save plainNetcfg.toAugeas (plainSet address "method" "static" s) := by
    rw [run_putNetcfg, h.netcfgChange_eq]
    dsimp only
    rw [run_bind_ok hmembers, run_commitNetcfg]
  unfold netcfgStep
  dsimp only
  rw [hrun]
  exact hsaves _

/-- The address of the rejected request is saved with the next one. -/
theorem PlainAt.half_written (h : PlainAt address s.tree) :
    (s.request, "set " ++ address ++ "/" ++ "address" ++ " " ++ "10.0.0.5") ∈
      (final (netcfgStep plainNetcfg) s halfRequests).written := by
  have hat : PlainAt address
      ({ plainSet address "address" "10.0.0.5" s with request := s.request + 1 } :
        Augtool PlainTree PlainTree).tree :=
    h.set _ _ (by decide) fun hname ↦ absurd hname (by decide)
  rw [halfRequests, final_cons, final_cons, final_nil, h.half_step, hat.static_step]
  apply List.mem_append_right
  apply List.mem_append_left
  exact List.mem_append_right _ List.mem_cons_self

end

/-- The address of the rejected request is in the interfaces after the next one. -/
theorem rejected_address_written :
    (responses plainNetcfg plainInterfaces halfRequests)[0]? =
        some (.error (.bios "bad-request-document" "Invalid option 'bogus'")) ∧
      (0, "set /files/etc/network/interfaces/iface[1]/address 10.0.0.5") ∈
        (served plainNetcfg plainInterfaces halfRequests).written ∧
      ¬ NeverWritten plainNetcfg plainInterfaces halfRequests := by
  have hhalf := PlainAt.half_step (s := Augtool.start plainNetcfg.toAugeas plainInterfaces)
    plainInterfaces_at
  have herror : (responses plainNetcfg plainInterfaces halfRequests)[0]? =
      some (.error (.bios "bad-request-document" "Invalid option 'bogus'")) := by
    rw [responses, halfRequests, answers, List.getElem?_cons_zero, hhalf]
  have hwritten : (0, "set /files/etc/network/interfaces/iface[1]/address 10.0.0.5") ∈
      (served plainNetcfg plainInterfaces halfRequests).written := by
    rw [show "set /files/etc/network/interfaces/iface[1]/address 10.0.0.5" =
      "set " ++ "/files/etc/network/interfaces/iface[1]" ++ "/" ++ "address" ++ " " ++ "10.0.0.5"
      by decide]
    exact PlainAt.half_written (s := Augtool.start plainNetcfg.toAugeas plainInterfaces)
      plainInterfaces_at
  exact ⟨herror, hwritten, fun h ↦ h _ _ hwritten _ herror⟩

def bogusRequest : NetcfgRequest := eth0Request [("bogus", .int 1)]

def addressRequest : NetcfgRequest := eth0Request [("address", .str "10.0.0.5")]

section

variable {address : String} {s : Augtool PlainTree PlainTree}

/-- A request that is refused at its first member leaves the process as it was. -/
theorem PlainAt.bogus_step (h : PlainAt address s.tree) :
    (netcfgStep plainNetcfg s bogusRequest).1 = { s with request := s.request + 1 } := by
  have hmembers : run ([("bogus", .int 1)].foldlM (setMember plainNetcfg address) "static") s =
      (.error (.bios "bad-request-document" "Invalid option 'bogus'"), s) := by
    rw [List.foldlM_cons, run_bind_error h.run_bogus]
  have hrun : run (putNetcfg plainNetcfg bogusRequest) s =
      (.error (.bios "bad-request-document" "Invalid option 'bogus'"), s) := by
    rw [run_putNetcfg, bogusRequest, h.netcfgChange_eq]
    exact run_bind_error hmembers
  unfold netcfgStep
  rw [hrun]

theorem PlainAt.clean_bogus (h : PlainAt address s.tree) : Clean plainNetcfg s bogusRequest := by
  intro c hc
  obtain rfl := Except.ok.inj ((h.netcfgChange_eq _).symm.trans hc)
  left
  refine ⟨?_, fun _ _ ↦ trivial⟩
  unfold Silent
  rw [if_neg (by decide)]
  intro now hread
  obtain rfl := Except.ok.inj (h.get_method.symm.trans hread)
  exact ⟨fun h ↦ absurd h (by decide), fun h ↦ absurd h (by decide), fun _ _ ↦ rfl,
    fun h ↦ absurd h (by decide), if_neg (by decide)⟩

theorem PlainAt.goesThrough_address (h : PlainAt address s.tree) :
    GoesThrough (putNetcfg plainNetcfg addressRequest) s := by
  have hat := h.set "address" "10.0.0.5" (by decide) fun hname ↦
    absurd hname (by decide)
  have ⟨a, ha⟩ := hat.netcfgAnswer_ok
  have hsaved (s : Augtool PlainTree PlainTree) :
      (Augtool.save plainNetcfg.toAugeas s).tree = s.tree :=
    Augtool.save_tree
  refine goesThrough_putNetcfg_iff.mpr ⟨_, h.netcfgChange_eq _, ?_⟩
  have ⟨hpasses, hafter⟩ := run_setMember_eq_ok.mp h.run_address
  refine ⟨_, hpasses, ?_⟩
  rw [← hafter, Accepted]
  exact ⟨plain_checkFiles _, a, by rw [hsaved]; exact ha⟩

end

/-- A request that is refused at its first member is clean. -/
theorem clean_bogusRequest :
    Clean plainNetcfg (served plainNetcfg plainInterfaces []) bogusRequest :=
  PlainAt.clean_bogus (s := Augtool.start plainNetcfg.toAugeas plainInterfaces) plainInterfaces_at

theorem neverWritten_addressRequest :
    NeverWritten plainNetcfg plainInterfaces [bogusRequest, addressRequest] := by
  have hbogus : EveryTime
      (fun before req ↦ Clean plainNetcfg (served plainNetcfg plainInterfaces before) req)
      [bogusRequest] :=
    everyTime_concat.mpr ⟨everyTime_nil, clean_bogusRequest⟩
  have hstep := PlainAt.bogus_step (s := Augtool.start plainNetcfg.toAugeas plainInterfaces)
    plainInterfaces_at
  have haddress : Clean plainNetcfg (served plainNetcfg plainInterfaces [bogusRequest])
      addressRequest := by
    apply clean_of_goesThrough
    rw [served, final_cons, final_nil, hstep]
    exact PlainAt.goesThrough_address plainInterfaces_at
  exact neverWritten_of_clean (everyTime_concat.mpr ⟨hbogus, haddress⟩) _ []
    (List.append_nil _).symm

end FtyRest.Ecpp
