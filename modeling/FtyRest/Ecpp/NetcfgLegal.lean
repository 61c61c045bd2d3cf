import FtyRest.Ecpp.NetcfgIface

/-!
# The methods of an interface

What accepted requests leave of the rule that the method of an interface is one of four, and that an
address, a netmask and a gateway go with `static` only.
-/

namespace FtyRest.Ecpp

open Checks History Reorder Shared StateExcept

/-- The method is one of those that are known. -/
def LegalMethod (settings : String → Option String) : Prop :=
  ∃ method, settings "method" = some method ∧ rexMethod method = true

/-- What goes with `static` is not there with another method. -/
def Tidy (settings : String → Option String) : Prop :=
  settings "method" ≠ some "static" → ∀ name ∈ staticNames, settings name = none

/-! ## One step -/

section

variable {τ φ ρ : Type} {api : NetcfgApi τ φ} {interfaces : ρ → List String} {st : IfaceState ρ}

theorem setMember_method (it : String × Json) :
    (st.setMember api interfaces it).settings "method" =
      (st.setMethod it).settings "method" := by
  have hname : "method" ∉ staticNames := by decide
  simp only [IfaceState.setMember, IfaceState.memberSettings, if_neg hname]

/-- After each member, whatever it is, the interface is tidy. -/
theorem tidy_setMember (it : String × Json) : Tidy (st.setMember api interfaces it).settings := by
  intro hmethod name hname
  rw [setMember_method] at hmethod
  -- what the member leaves is removed unless the method, read after it, is `static`
  have hnow : (st.setMethod it).method ≠ "static" := by
    unfold IfaceState.method
    cases hget : (st.setMethod it).settings "method" with
    | none => decide
    | some method =>
      rw [hget] at hmethod
      exact fun h ↦ hmethod (congrArg some h)
  show IfaceState.memberSettings _ it _ name = none
  rw [IfaceState.memberSettings, if_pos hname, if_pos hnow]

theorem legalMethod_setMember {it : String × Json} (h : LegalMethod st.settings)
    (hit : it.1 = "method" → rexMethod it.2.getValue = true) :
    LegalMethod (st.setMember api interfaces it).settings := by
  unfold LegalMethod
  rw [setMember_method]
  unfold IfaceState.setMethod
  by_cases hname : it.1 = "method"
  · rw [if_pos hname]
    refine ⟨it.2.getValue, ?_, hit hname⟩
    exact Function.update_self "method" _ st.settings
  · rw [if_neg hname]
    exact h

theorem legalMethod_members {rsi : List (String × Json)} (h : LegalMethod st.settings)
    (hrsi : ∀ it ∈ rsi, it.1 = "method" → rexMethod it.2.getValue = true) :
    LegalMethod (rsi.foldl (IfaceState.setMember api interfaces) st).settings := by
  induction rsi generalizing st with
  | nil => exact h
  | cons it rsi ih =>
    exact ih (legalMethod_setMember h (hrsi it List.mem_cons_self))
      fun it' hit' ↦ hrsi it' (List.mem_cons_of_mem it hit')

theorem tidy_members {rsi : List (String × Json)} (h : Tidy st.settings ∨ rsi ≠ []) :
    Tidy (rsi.foldl (IfaceState.setMember api interfaces) st).settings := by
  induction rsi generalizing st with
  | nil => exact h.resolve_right fun hne ↦ hne rfl
  | cons it rsi ih => exact ih (Or.inl (tidy_setMember it))

end

/-! ## Another interface -/

section

variable {τ φ ρ : Type} {api : NetcfgApi τ φ} {address : String} {state : τ → IfaceState ρ}
  {interfaces : ρ → List String} {s : Augtool τ φ} {path : String}

/-- `path` is not the interface. -/
def Elsewhere (api : NetcfgApi τ φ) (state : τ → IfaceState ρ) (path : String) : Prop :=
  '\n' ∉ path.toList ∧ ∀ tree, ∀ name ∈ settingNames,
    (∀ value, Word value →
      (state (api.edit tree ("set " ++ path ++ "/" ++ name ++ " " ++ value))).settings =
        (state tree).settings) ∧
    (state (api.edit tree ("rm " ++ path ++ "/" ++ name))).settings = (state tree).settings

theorem Elsewhere.set (h : Elsewhere api state path) {name value : String}
    (hname : name ∈ settingNames) (hvalue : Word value) :
    (state (runCmds api ["set " ++ path ++ "/" ++ name ++ " " ++ value] s).tree).settings =
      (state s.tree).settings := by
  rw [runCmds_edit (kind_set_cmd _ _ _) (set_line h.1 hname hvalue)]
  exact (h.2 s.tree name hname).1 value hvalue

theorem Elsewhere.rm (h : Elsewhere api state path) {name : String}
    (hname : name ∈ settingNames) :
    (state (runCmds api ["rm " ++ path ++ "/" ++ name] s).tree).settings =
      (state s.tree).settings := by
  rw [runCmds_edit (kind_rm_cmd _ _) (rm_line h.1 hname)]
  exact (h.2 s.tree name hname).2

theorem Elsewhere.afterSet (h : Elsewhere api state path) {name : String}
    (hname : name ∈ settingNames) {it : String × Json} (hword : it.1 = name → Word it.2.getValue) :
    (state (runCmds api (setCommands path name it) s).tree).settings =
      (state s.tree).settings := by
  unfold setCommands
  by_cases hit : it.1 = name
  · rw [if_pos hit]
    exact h.set hname (hword hit)
  · rw [if_neg hit]
    rfl

theorem Elsewhere.afterRm (h : Elsewhere api state path) (now : String) :
    (state (runCmds api (rmCommands path now) s).tree).settings = (state s.tree).settings := by
  unfold rmCommands
  by_cases hnow : now ≠ "static"
  · rw [if_pos hnow]
    have haddress (s : Augtool τ φ) := h.rm (s := s) (show "address" ∈ settingNames by decide)
    have hnetmask (s : Augtool τ φ) := h.rm (s := s) (show "netmask" ∈ settingNames by decide)
    have hgateway (s : Augtool τ φ) := h.rm (s := s) (show "gateway" ∈ settingNames by decide)
    simp only [path_append _ slash_address] at haddress
    simp only [path_append _ slash_netmask] at hnetmask
    simp only [path_append _ slash_gateway] at hgateway
    rw [runCmds_cons, runCmds_cons, hgateway, hnetmask, haddress]
  · rw [if_neg hnow]
    rfl

theorem Elsewhere.afterGateway (hlaws : InterfaceLaws api address state interfaces)
    (h : Elsewhere api state path) {now : String} {it : String × Json}
    (hset : Settable api now it) :
    (state (runCmds api (gatewayCommands path now it) s).tree).settings =
      (state s.tree).settings := by
  unfold gatewayCommands
  by_cases hit : it.1 = "gateway" ∧ now = "static"
  · rw [if_pos hit]
    by_cases hvalue : it.2.getValue = ""
    · rw [if_pos hvalue]
      have hrm := h.rm (s := s) (show "gateway" ∈ settingNames by decide)
      rwa [path_append _ slash_gateway] at hrm
    · rw [if_neg hvalue]
      have hword := hlaws.word_of_valid ((hset.gateway hit).resolve_left hvalue)
      have hgateway := h.set (s := s) (show "gateway" ∈ settingNames by decide) hword
      rwa [path_append _ slash_gateway, path_append _ gateway_blank] at hgateway
  · rw [if_neg hit]
    rfl

theorem settings_afterNameservers (hlaws : InterfaceLaws api address state interfaces)
    {now : String} {it : String × Json} (hset : Settable api now it) :
    (state (runCmds api (nameserverCommands api s.tree it) s).tree).settings =
      (state s.tree).settings := by
  unfold nameserverCommands
  by_cases hit : it.1 = "nameservers"
  · obtain ⟨list, hlist⟩ := hset.nameservers hit
    have htargets : dnsCommands api s.tree list =
        (interfaces (state s.tree).rest).map (serversCommand list) := by
      show (List.filterMap dnsIface (api.output _ matchInterfaces)).map _ = _
      rw [hlaws.targets]
      rfl
    have hat : At state (state s.tree) s.files s := ⟨rfl, rfl⟩
    have hservers := hat.afterServers hlaws (hlaws.words_of_nsList hlist) fun _ hsub ↦ hsub
    simp only [if_pos hit, hlist, htargets]
    rw [hservers.1]
  · rw [if_neg hit]
    rfl

/-- The members of a request for another interface. -/
theorem Elsewhere.members (hlaws : InterfaceLaws api address state interfaces)
    (h : Elsewhere api state path) {rsi : List (String × Json)} (hwords : MethodWords rsi)
    {method now : String} {s' : Augtool τ φ}
    (hrun : run (rsi.foldlM (setMember api path) method) s = (.ok now, s')) :
    (state s'.tree).settings = (state s.tree).settings := by
  induction rsi generalizing s method with
  | nil =>
    obtain ⟨-, rfl⟩ := Prod.mk.inj hrun
    rfl
  | cons it rsi ih =>
    rw [List.foldlM_cons] at hrun
    obtain ⟨now', s₁, hfirst, hrest⟩ := run_bind_eq_ok.mp hrun
    obtain ⟨hpasses, rfl⟩ := run_setMember_eq_ok.mp hfirst
    have hset := hpasses.settable
    rw [ih (fun it' hit' ↦ hwords it' (List.mem_cons_of_mem it hit')) hrest]
    unfold afterMember
    dsimp only
    simp only [runCmds_append]
    rw [settings_afterNameservers hlaws hset, h.afterGateway hlaws hset, h.afterRm,
      h.afterSet (by decide) fun hit ↦ hlaws.word_of_netmask (hset.netmask hit).1,
      h.afterSet (by decide) fun hit ↦ hlaws.word_of_valid (hset.address hit).1,
      h.afterSet List.mem_cons_self (hwords it List.mem_cons_self)]

end

/-! ## Runs -/

section

variable {τ φ ρ : Type} {api : NetcfgApi τ φ} {address : String} {state : τ → IfaceState ρ}
  {interfaces : ρ → List String} {s s' : Augtool τ φ}

/-- Every method that the request gives is one of those that are known. -/
def NamesMethods (req : NetcfgRequest) : Prop :=
  ∀ doc si, req.body = .ok doc → doc.getMember req.iface = some si →
    ∀ it ∈ si.members, it.1 = "method" → rexMethod it.2.getValue = true

/-- The request has something to set for the interface. -/
def Concerns (api : NetcfgApi τ φ) (address : String) (s : Augtool τ φ) (req : NetcfgRequest) :
    Prop :=
  ∃ c, netcfgChange api s.tree req = .ok c ∧ c.address = address ∧ c.rsi ≠ []

theorem word_of_rexMethod {method : String} (h : rexMethod method = true) : Word method := by
  have hwords : ∀ method ∈ ["dhcp", "static", "none", "manual"], Word method := by decide
  exact hwords method (List.contains_iff_mem.mp h)

/-- One accepted request. -/
theorem accepted_legal (hlaws : InterfaceLaws api address state interfaces) {req : NetcfgRequest}
    (hreq : NamesMethods req) (hthrough : GoesThrough (putNetcfg api req) s) :
    let settings := (state s.tree).settings
    let settings' := (state (netcfgStep api s req).1.tree).settings
    (LegalMethod settings → LegalMethod settings') ∧
      (Tidy settings ∨ Concerns api address s req → Tidy settings') := by
  obtain ⟨a, s', hrun⟩ := hthrough
  have hstep : (netcfgStep api s req).1.tree = s'.tree := by
    show (run (putNetcfg api req) s).2.tree = _
    rw [hrun]
  obtain ⟨c, hc, now, s₁, hmembers, hcommit⟩ := run_putNetcfg_eq_ok.mp hrun
  obtain ⟨hpath, hmethod, doc, si, hdoc, hsi, hrsi⟩ := netcfgChange_eq_ok hc
  have hnames : ∀ it ∈ c.rsi, it.1 = "method" → rexMethod it.2.getValue = true := by
    rw [hrsi]
    exact hreq doc si hdoc hsi
  have hwords : MethodWords c.rsi := fun it hit hname ↦ word_of_rexMethod (hnames it hit hname)
  have hsaved : (state s'.tree).settings = (state s₁.tree).settings := by
    rw [(run_commitNetcfg_eq_ok.mp hcommit).1, Augtool.save_tree, hlaws.save_settings]
  dsimp only
  rw [hstep, hsaved]
  -- a request for another interface changes no setting of this one
  by_cases haddress : c.address = address
  · have hat : At state (state s.tree) s.files s := ⟨rfl, rfl⟩
    have hread : c.method = (state s.tree).method := by
      rw [haddress, hlaws.get _ _ List.mem_cons_self] at hmethod
      exact (Except.ok.inj hmethod).symm
    rw [haddress, hread] at hmembers
    obtain ⟨-, hend, -⟩ := at_of_members hlaws hat hwords hmembers
    rw [hend]
    refine ⟨fun h ↦ legalMethod_members h hnames, fun h ↦ tidy_members ?_⟩
    refine h.imp_right ?_
    rintro ⟨c', hc', -, hne⟩
    rwa [Except.ok.inj (hc.symm.trans hc')]
  · have helsewhere : Elsewhere api state c.address := hlaws.other s.tree _ _ hpath haddress
    rw [helsewhere.members hlaws hwords hmembers]
    refine ⟨id, fun h ↦ h.resolve_right ?_⟩
    rintro ⟨c', hc', heq, -⟩
    exact haddress (Except.ok.inj (hc.symm.trans hc') ▸ heq)

/-- When the methods that accepted requests give are known ones, the method stays legal, and what
goes with `static` is there with another method only if it was at the start and no request has
had anything to set. -/
theorem network_stays_legal (hlaws : InterfaceLaws api address state interfaces)
    {reqs : List NetcfgRequest}
    (haccepted : EveryTime
      (fun before req ↦ GoesThrough (putNetcfg api req) (final (netcfgStep api) s before)) reqs)
    (hmethods : ∀ req ∈ reqs, NamesMethods req) (hstart : LegalMethod (state s.tree).settings) :
    LegalMethod (state (final (netcfgStep api) s reqs).tree).settings ∧
      (Tidy (state s.tree).settings ∨
          (∃ before req after, reqs = before ++ req :: after ∧
            Concerns api address (final (netcfgStep api) s before) req) →
        Tidy (state (final (netcfgStep api) s reqs).tree).settings) := by
  induction reqs using List.reverseRecOn with
  | nil =>
    refine ⟨hstart, fun h ↦ h.resolve_right ?_⟩
    rintro ⟨before, req, after, heq, -⟩
    simp at heq
  | append_singleton reqs req ih =>
    obtain ⟨haccepted, hthrough⟩ := everyTime_concat.mp haccepted
    obtain ⟨hlegal, htidy⟩ := ih haccepted fun r hr ↦ hmethods r (List.mem_append_left _ hr)
    have hreq := hmethods req (List.mem_append_right _ List.mem_cons_self)
    obtain ⟨hlegal', htidy'⟩ := accepted_legal hlaws hreq hthrough
    rw [final_concat]
    refine ⟨hlegal' hlegal, fun h ↦ htidy' ?_⟩
    rcases h with h | ⟨before, r, after, heq, hr⟩
    · exact Or.inl (htidy (Or.inl h))
    · -- the request that has something to set is the last one, or one in front of it
      rcases List.eq_nil_or_concat after with rfl | ⟨after, last, rfl⟩
      · obtain ⟨rfl, hlast⟩ := List.append_inj' heq rfl
        obtain rfl := List.singleton_inj.mp hlast
        exact Or.inr hr
      · rw [List.concat_eq_append, ← List.cons_append, ← List.append_assoc] at heq
        obtain ⟨rfl, -⟩ := List.append_inj' heq rfl
        exact Or.inl (htidy (Or.inr ⟨before, r, after, rfl, hr⟩))

end

/-- Any word is taken for a method. -/
theorem eth0_takes_method {method : String} (hrex : rexMethod method = true) {value : String}
    (hword : Word value) :
    GoesThrough (putNetcfg nodesNetcfg (eth0Request [("method", .str value)]))
        (eth0With method) ∧
      (nodesState (netcfgStep nodesNetcfg (eth0With method)
        (eth0Request [("method", .str value)])).1.tree).settings "method" = some value := by
  have hmethod : (nodesState (eth0With method).tree).method = method := by
    rw [IfaceState.method, (eth0With_settings method).1]
    rfl
  have hwords : MethodWords [("method", .str value)] := by
    intro it hit _
    rw [List.mem_singleton.mp hit]
    exact hword
  have haccepts : Accepts (IfaceState.Ok nodesNetcfg) nodesStep (nodesState (eth0With method).tree)
      [("method", .str value)] :=
    ⟨⟨fun _ ↦ hmethod.symm ▸ hrex, settable_method rfl _⟩, trivial⟩
  obtain ⟨hthrough, hstate⟩ := nodes_goesThrough hwords haccepts (eth0With_servers method)
  refine ⟨hthrough, ?_⟩
  rw [hstate]
  show (nodesStep _ _).settings "method" = _
  rw [setMember_method]
  exact Function.update_self "method" _ (nodesState (eth0With method).tree).settings

theorem eth0_static_legal : LegalMethod (nodesState (eth0With "static").tree).settings :=
  ⟨"static", (eth0With_settings "static").1, by decide⟩

theorem network_stays_legal_dhcp :
    LegalMethod (nodesState (final (netcfgStep nodesNetcfg) (eth0With "static")
        [eth0Request [("method", .str "dhcp")]]).tree).settings ∧
      (Tidy (nodesState (eth0With "static").tree).settings ∨
          (∃ before req after, [eth0Request [("method", .str "dhcp")]] = before ++ req :: after ∧
            Concerns nodesNetcfg eth0Path
              (final (netcfgStep nodesNetcfg) (eth0With "static") before) req) →
        Tidy (nodesState (final (netcfgStep nodesNetcfg) (eth0With "static")
          [eth0Request [("method", .str "dhcp")]]).tree).settings) := by
  have hthrough := (eth0_takes_method (by decide : rexMethod "static" = true)
    (by decide : Word "dhcp")).1
  have hnames : NamesMethods (eth0Request [("method", .str "dhcp")]) := by
    rintro doc si hdoc hsi it hit -
    obtain rfl := Except.ok.inj hdoc
    obtain rfl := Option.some.inj hsi
    rw [List.mem_singleton.mp hit]
    decide
  exact network_stays_legal nodesNetcfg_laws (everyTime_concat.mpr ⟨everyTime_nil, hthrough⟩)
    (List.forall_mem_singleton.mpr hnames) eth0_static_legal

/-- The method is checked before it is set: any text is accepted. -/
theorem unknown_method_is_set :
    LegalMethod (nodesState (eth0With "static").tree).settings ∧
      Tidy (nodesState (eth0With "static").tree).settings ∧
      GoesThrough (putNetcfg nodesNetcfg (eth0Request [("method", .str "foo")]))
        (eth0With "static") ∧
      ¬ LegalMethod (nodesState (netcfgStep nodesNetcfg (eth0With "static")
        (eth0Request [("method", .str "foo")])).1.tree).settings := by
  obtain ⟨hthrough, hfoo⟩ := eth0_takes_method (by decide : rexMethod "static" = true)
    (by decide : Word "foo")
  refine ⟨eth0_static_legal, ?_, hthrough, ?_⟩
  · intro h
    exact absurd (eth0With_settings "static").1 h
  · rintro ⟨method, hmethod, hrex⟩
    obtain rfl := Option.some.inj (hfoo.symm.trans hmethod)
    exact absurd hrex (by decide)

end FtyRest.Ecpp
