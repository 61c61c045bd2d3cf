import FtyRest.Ecpp.NetcfgIface

/-!
# The order of the members

When two requests that have the same members in another order are answered alike.
-/

namespace FtyRest.Ecpp

open Checks Reorder Shared StateExcept

/-- The members have different names, the method is a word, and when it switches between `static`
and another one, then nothing that goes with `static` is set along, and nothing of it is left
from before. -/
structure Unordered {ρ : Type} (st : IfaceState ρ) (rsi : List (String × Json)) : Prop where
  distinct : (rsi.map Prod.fst).Nodup
  words : MethodWords rsi
  switches : ∀ it ∈ rsi, it.1 = "method" → ¬ (st.method = "static" ↔ it.2.getValue = "static") →
    (∀ it' ∈ rsi, it'.1 ∉ staticNames) ∧
      (it.2.getValue = "static" → ∀ name ∈ staticNames, st.settings name = none)

/-! ## Two members -/

section

variable {τ φ ρ : Type} {api : NetcfgApi τ φ} {interfaces : ρ → List String} {st : IfaceState ρ}
  {x y it : String × Json}

theorem setMethod_of_ne (h : it.1 ≠ "method") : st.setMethod it = st := if_neg h

theorem method_setMember (h : it.1 ≠ "method") :
    (st.setMember api interfaces it).method = st.method := by
  have hname : "method" ∉ staticNames := by decide
  simp only [IfaceState.setMember, IfaceState.method, IfaceState.memberSettings, if_neg hname,
    setMethod_of_ne h]

theorem method_setMethod (h : it.1 = "method") : (st.setMethod it).method = it.2.getValue := by
  rw [IfaceState.setMethod, if_pos h]
  show (Function.update st.settings "method" _ "method").getD "" = _
  rw [Function.update_self]
  rfl

theorem method_after_method (h : it.1 = "method") :
    (st.setMember api interfaces it).method = it.2.getValue := by
  have hname : "method" ∉ staticNames := by decide
  have hset : (st.setMethod it).method = it.2.getValue := method_setMethod h
  simp only [IfaceState.method] at hset
  simp only [IfaceState.setMember, IfaceState.method, IfaceState.memberSettings, if_neg hname,
    hset]

/-- The check of a member sees of the method whether it is `static`, if at all. -/
theorem settable_of_method {method method' : String}
    (h : (method = "static" ↔ method' = "static") ∨ it.1 ∉ staticNames)
    (hset : Settable api method it) : Settable api method' it := by
  have hstatic (hname : it.1 ∈ staticNames) : method = "static" → method' = "static" :=
    (h.resolve_right fun hnot ↦ hnot hname).mp
  constructor
  · rcases hset.known with hit | hit | hit | ⟨hit, hm⟩ | hit
    · exact Or.inl hit
    · exact Or.inr (Or.inl hit)
    · exact Or.inr (Or.inr (Or.inl hit))
    · have hm' := hstatic (hit ▸ by decide) hm
      exact Or.inr (Or.inr (Or.inr (Or.inl ⟨hit, hm'⟩)))
    · exact Or.inr (Or.inr (Or.inr (Or.inr hit)))
  · intro hit
    exact (hset.address hit).imp_right (hstatic (hit ▸ by decide))
  · intro hit
    exact (hset.netmask hit).imp_right (hstatic (hit ▸ by decide))
  · intro ⟨hit, hm'⟩
    apply hset.gateway
    have hmem : it.1 ∈ staticNames := hit ▸ by decide
    exact ⟨hit, (h.resolve_right fun hnot ↦ hnot hmem).mpr hm'⟩
  · exact hset.nameservers

theorem memberSettings_comm (hne : x.1 ≠ y.1) (now : String)
    (settings : String → Option String) :
    IfaceState.memberSettings now x (IfaceState.memberSettings now y settings) =
      IfaceState.memberSettings now y (IfaceState.memberSettings now x settings) := by
  funext name
  unfold IfaceState.memberSettings
  by_cases hname : name ∈ staticNames
  · simp only [if_pos hname]
    by_cases hnow : now ≠ "static"
    · rw [if_pos hnow, if_pos hnow]
    · simp only [if_neg hnow]
      by_cases hx : name = x.1
      · rw [if_pos hx, if_pos hx, if_neg (hx ▸ hne)]
      · rw [if_neg hx, if_neg hx]
  · simp only [if_neg hname]

theorem memberServers_comm (hne : x.1 ≠ y.1) (targets : List String)
    (servers : String → Option String) :
    IfaceState.memberServers api targets x (IfaceState.memberServers api targets y servers) =
      IfaceState.memberServers api targets y (IfaceState.memberServers api targets x servers) := by
  funext sub
  unfold IfaceState.memberServers
  by_cases hx : x.1 = "nameservers" ∧ sub ∈ targets
  · have hy : ¬ (y.1 = "nameservers" ∧ sub ∈ targets) := fun hy ↦ hne (hx.1.trans hy.1.symm)
    simp only [if_pos hx, if_neg hy]
  · simp only [if_neg hx]

/-- Members other than the method change places. -/
theorem setMember_comm (hne : x.1 ≠ y.1) (hx : x.1 ≠ "method") (hy : y.1 ≠ "method") :
    (st.setMember api interfaces y).setMember api interfaces x =
      (st.setMember api interfaces x).setMember api interfaces y := by
  have hmx : (st.setMember api interfaces x).method = st.method := method_setMember hx
  have hmy : (st.setMember api interfaces y).method = st.method := method_setMember hy
  apply IfaceState.ext
  · show IfaceState.memberSettings _ x _ = IfaceState.memberSettings _ y _
    rw [setMethod_of_ne hx, setMethod_of_ne hy, hmx, hmy]
    simp only [IfaceState.setMember, setMethod_of_ne hx, setMethod_of_ne hy]
    exact memberSettings_comm hne st.method st.settings
  · show IfaceState.memberServers api _ x _ = IfaceState.memberServers api _ y _
    simp only [IfaceState.setMember, setMethod_of_ne hx, setMethod_of_ne hy]
    exact memberServers_comm hne _ _
  · simp only [IfaceState.setMember, setMethod_of_ne hx, setMethod_of_ne hy]

/-- The method changes places with a member when it does not switch between `static` and another
one, or when there is nothing that goes with `static`. -/
theorem setMember_method_comm (hx : x.1 = "method") (hy : y.1 ≠ "method")
    (h : (st.method = "static" ↔ x.2.getValue = "static") ∨
      y.1 ∉ staticNames ∧
        (x.2.getValue = "static" → ∀ name ∈ staticNames, st.settings name = none)) :
    (st.setMember api interfaces y).setMember api interfaces x =
      (st.setMember api interfaces x).setMember api interfaces y := by
  have hvalue (st : IfaceState ρ) : (st.setMethod x).method = x.2.getValue := method_setMethod hx
  have hmethod : (st.setMember api interfaces x).method = x.2.getValue := method_after_method hx
  have hset (st : IfaceState ρ) (name : String) (hname : name ≠ "method") :
      (st.setMethod x).settings name = st.settings name := by
    rw [IfaceState.setMethod, if_pos hx]
    exact Function.update_of_ne hname _ _
  apply IfaceState.ext
  · funext name
    show IfaceState.memberSettings _ x _ name = IfaceState.memberSettings _ y _ name
    rw [hvalue, setMethod_of_ne hy, hmethod]
    by_cases hname : name ∈ staticNames
    · -- what goes with `static` depends on the method at the time of each member
      have hne : name ≠ "method" := by
        rintro rfl
        exact absurd hname (by decide)
      unfold IfaceState.memberSettings
      rw [if_pos hname, if_pos hname]
      by_cases hstatic : x.2.getValue ≠ "static"
      · rw [if_pos hstatic, if_pos hstatic]
      · rw [if_neg hstatic, if_neg hstatic, if_neg (hx ▸ hne), hset _ _ hne]
        simp only [IfaceState.setMember, IfaceState.memberSettings, if_pos hname, hvalue,
          if_neg hstatic, if_neg (hx ▸ hne : name ≠ x.1), hset _ _ hne, setMethod_of_ne hy]
        rcases h with hsame | ⟨hnot, hnone⟩
        · rw [if_neg (not_not_intro (hsame.mpr (not_not.mp hstatic)))]
        · -- nothing is left, so what is removed on the way was not there
          have hney : name ≠ y.1 := fun heq ↦ hnot (heq ▸ hname)
          rw [if_neg hney, hnone (not_not.mp hstatic) name hname, ite_self]
    · -- any other setting is changed by the method alone
      have hkeep (now : String) (it : String × Json) (settings : String → Option String) :
          IfaceState.memberSettings now it settings name = settings name := by
        unfold IfaceState.memberSettings
        rw [if_neg hname]
      simp only [hkeep, IfaceState.setMember, setMethod_of_ne hy]
      by_cases hne : name = "method"
      · have hput (st : IfaceState ρ) : (st.setMethod x).settings "method" = some x.2.getValue := by
          rw [IfaceState.setMethod, if_pos hx]
          exact Function.update_self "method" _ st.settings
        rw [hne, hput, hput]
      · rw [hset _ _ hne, hset _ _ hne]
        exact hkeep _ _ _
  · have hserver (st : IfaceState ρ) : (st.setMethod x).servers = st.servers := by
      rw [IfaceState.setMethod, if_pos hx]
    have hrest (st : IfaceState ρ) : (st.setMethod x).rest = st.rest := by
      rw [IfaceState.setMethod, if_pos hx]
    have hskip (targets : List String) (servers : String → Option String) :
        IfaceState.memberServers api targets x servers = servers := by
      funext sub
      unfold IfaceState.memberServers
      rw [if_neg]
      rintro ⟨hit, -⟩
      exact absurd (hx.symm.trans hit) (by decide)
    simp only [IfaceState.setMember, hserver, hskip, setMethod_of_ne hy, hrest]
  · have hrest (st : IfaceState ρ) : (st.setMethod x).rest = st.rest := by
      rw [IfaceState.setMethod, if_pos hx]
    simp only [IfaceState.setMember, hrest, setMethod_of_ne hy]

theorem Unordered.places {rsi : List (String × Json)} (h : Unordered st rsi) (hx : x ∈ rsi)
    (hy : y ∈ rsi) (hmethod : x.1 = "method") :
    (st.method = "static" ↔ x.2.getValue = "static") ∨
      y.1 ∉ staticNames ∧
        (x.2.getValue = "static" → ∀ name ∈ staticNames, st.settings name = none) := by
  by_cases hsame : st.method = "static" ↔ x.2.getValue = "static"
  · exact Or.inl hsame
  · obtain ⟨hnone, hleft⟩ := h.switches x hx hmethod hsame
    exact Or.inr ⟨hnone y hy, hleft⟩

theorem Unordered.perm {rsi rsi' : List (String × Json)} (h : Unordered st rsi)
    (hperm : rsi.Perm rsi') : Unordered st rsi' where
  distinct := (hperm.map Prod.fst).nodup_iff.mp h.distinct
  words it hit := h.words it (hperm.mem_iff.mpr hit)
  switches it hit hname hswitch := by
    obtain ⟨hnone, hleft⟩ := h.switches it (hperm.mem_iff.mpr hit) hname hswitch
    exact ⟨fun it' hit' ↦ hnone it' (hperm.mem_iff.mpr hit'), hleft⟩

theorem Unordered.tail {rsi : List (String × Json)} (h : Unordered st (x :: rsi)) :
    Unordered (st.setMember api interfaces x) rsi := by
  obtain ⟨hnew, hdistinct⟩ := List.nodup_cons.mp (List.map_cons ▸ h.distinct)
  refine ⟨hdistinct, fun it hit ↦ h.words it (List.mem_cons_of_mem x hit), ?_⟩
  intro it hit hname hswitch
  have hx : x.1 ≠ "method" := by
    rintro hx
    exact hnew (hx.trans hname.symm ▸ List.mem_map.mpr ⟨it, hit, rfl⟩)
  rw [method_setMember hx] at hswitch
  obtain ⟨hnone, hleft⟩ := h.switches it (List.mem_cons_of_mem x hit) hname hswitch
  refine ⟨fun it' hit' ↦ hnone it' (List.mem_cons_of_mem x hit'), ?_⟩
  intro hvalue name hstatic
  have hne : name ≠ x.1 := fun heq ↦ hnone x List.mem_cons_self (heq ▸ hstatic)
  simp only [IfaceState.setMember, IfaceState.memberSettings, setMethod_of_ne hx, if_pos hstatic,
    if_neg hne, hleft hvalue name hstatic, ite_self]

/-- Neighbours that are accepted can change places. -/
theorem unordered_exchange :
    Exchange (IfaceState.Ok api) (IfaceState.setMember api interfaces)
      (Unordered : IfaceState ρ → List (String × Json) → Prop) where
  perm h hperm := h.perm hperm
  tail h _ := h.tail
  swap {st x y rsi} h hx hy := by
    have hxmem : x ∈ x :: y :: rsi := List.mem_cons_self
    have hymem : y ∈ x :: y :: rsi := List.mem_cons_of_mem x List.mem_cons_self
    have hne : x.1 ≠ y.1 := by
      intro heq
      have hnew := (List.nodup_cons.mp (List.map_cons ▸ h.distinct)).1
      exact hnew (heq ▸ List.mem_cons_self)
    by_cases hxm : x.1 = "method"
    · have hym : y.1 ≠ "method" := fun heq ↦ hne (hxm.trans heq.symm)
      have hplaces := h.places hxmem hymem hxm
      refine ⟨⟨fun heq ↦ absurd heq hym, ?_⟩, ⟨fun _ ↦ ?_, settable_method hxm _⟩,
        setMember_method_comm hxm hym hplaces⟩
      · -- the member is checked with the other method
        have hset := hy.2
        rw [setMethod_of_ne hym] at hset ⊢
        rw [method_after_method hxm] at hset
        exact settable_of_method (hplaces.imp Iff.symm And.left) hset
      · rw [method_setMember hym]
        exact hx.1 hxm
    · by_cases hym : y.1 = "method"
      · have hplaces := h.places hymem hxmem hym
        have hrex := hy.1 hym
        rw [method_setMember hxm] at hrex
        refine ⟨⟨fun _ ↦ hrex, settable_method hym _⟩, ⟨fun heq ↦ absurd heq hxm, ?_⟩,
          (setMember_method_comm hym hxm hplaces).symm⟩
        have hset := hx.2
        rw [setMethod_of_ne hxm] at hset ⊢
        rw [method_after_method hym]
        exact settable_of_method (hplaces.imp_right And.left) hset
      · have hmx : (st.setMember api interfaces x).method = st.method := method_setMember hxm
        have hmy : (st.setMember api interfaces y).method = st.method := method_setMember hym
        have hsety := hy.2
        have hsetx := hx.2
        rw [setMethod_of_ne hym, hmx] at hsety
        rw [setMethod_of_ne hxm] at hsetx
        refine ⟨⟨fun heq ↦ absurd heq hym, by rwa [setMethod_of_ne hym]⟩,
          ⟨fun heq ↦ absurd heq hxm, by rwa [setMethod_of_ne hxm, hmy]⟩,
          setMember_comm hne hxm hym⟩

end

/-! ## Two requests -/

section

variable {τ φ ρ : Type} {api : NetcfgApi τ φ} {address : String} {state : τ → IfaceState ρ}
  {interfaces : ρ → List String} {s : Augtool τ φ}

/-- What is read of trees that tell the same is the same. -/
theorem cmdOut_congr (hlaws : InterfaceLaws api address state interfaces) {tree tree' : τ}
    (h : state tree = state tree') {cmd : String} (hcmd : cmd ∈ readCommands address)
    (keyValue : Bool) (sep : String) :
    cmdOut api tree cmd keyValue sep = cmdOut api tree' cmd keyValue sep := by
  unfold cmdOut
  rw [hlaws.read tree tree' h cmd hcmd]

theorem checkFiles_congr (hlaws : InterfaceLaws api address state interfaces) {tree tree' : τ}
    (h : state tree = state tree') : checkFiles api tree = checkFiles api tree' := by
  unfold checkFiles
  rw [cmdOut_congr hlaws h (by simp [readCommands]), cmdOut_congr hlaws h (by simp [readCommands])]

theorem netcfgAnswer_congr (hlaws : InterfaceLaws api address state interfaces) {tree tree' : τ}
    (h : state tree = state tree') (iface : String) :
    netcfgAnswer api tree iface address = netcfgAnswer api tree' iface address := by
  unfold netcfgAnswer augGet
  rw [cmdOut_congr hlaws h (by simp [readCommands]), cmdOut_congr hlaws h (by simp [readCommands]),
    cmdOut_congr hlaws h (by simp [readCommands]), cmdOut_congr hlaws h (by simp [readCommands]),
    cmdOut_congr hlaws h (by simp [readCommands])]

/-- Two requests that differ in the order of the members. -/
structure SameMembers (req req' : NetcfgRequest) (members members' : List (String × Json)) :
    Prop where
  permitted : req.permitted = req'.permitted
  iface : req.iface = req'.iface
  body : ∃ doc, req.body = .ok doc ∧ doc.getMember req.iface = some (.object members)
  body' : ∃ doc, req'.body = .ok doc ∧ doc.getMember req'.iface = some (.object members')
  perm : members.Perm members'

variable {req req' : NetcfgRequest} {members members' : List (String × Json)}

theorem SameMembers.symm (h : SameMembers req req' members members') :
    SameMembers req' req members' members :=
  ⟨h.permitted.symm, h.iface.symm, h.body', h.body, h.perm.symm⟩

/-- In front of the members, the two requests are treated alike. -/
theorem netcfgChange_same (h : SameMembers req req' members members') {tree : τ}
    {c : NetcfgChange} (hc : netcfgChange api tree req = .ok c) :
    c.rsi = members ∧ netcfgChange api tree req' = .ok { c with rsi := members' } := by
  obtain ⟨doc, hdoc, hmember⟩ := h.body
  obtain ⟨doc', hdoc', hmember'⟩ := h.body'
  simp only [netcfgChange, bind_eq_ok, pure_eq_ok, require_eq_ok, mapError_eq_ok, orThrow_eq_ok,
    exists_const] at hc
  obtain ⟨hpermitted, u, hfiles, hempty, hrex, path, hpath, hfound, method, hmethod, d, hd, si,
    hsi, rfl⟩ := hc
  obtain rfl := Except.ok.inj (hdoc.symm.trans hd)
  obtain rfl := Option.some.inj (hmember.symm.trans hsi)
  refine ⟨rfl, ?_⟩
  simp only [netcfgChange, bind_eq_ok, pure_eq_ok, require_eq_ok, mapError_eq_ok, orThrow_eq_ok,
    exists_const]
  rw [h.iface] at hempty hrex hpath
  exact ⟨h.permitted ▸ hpermitted, u, hfiles, hempty, hrex, path, hpath, hfound, method, hmethod,
    doc', hdoc', .object members', hmember', rfl⟩

/-- A request that goes through goes through with its members in another order. -/
theorem same_outcome (hlaws : InterfaceLaws api address state interfaces)
    (h : SameMembers req req' members members')
    (haddress : cmdOut api s.tree ("match /files/etc/network/interfaces/iface[*] " ++ req.iface)
      false "" = .ok address)
    (hunordered : Unordered (state s.tree) members)
    (hthrough : GoesThrough (putNetcfg api req) s) :
    GoesThrough (putNetcfg api req') s ∧
      state (run (putNetcfg api req) s).2.tree = state (run (putNetcfg api req') s).2.tree := by
  obtain ⟨a, s', hrun⟩ := hthrough
  obtain ⟨c, hc, now, s₁, hmembers, hcommit⟩ := run_putNetcfg_eq_ok.mp hrun
  obtain ⟨hrsi, hc'⟩ := netcfgChange_same h hc
  obtain ⟨hpath, hmethod, -⟩ := netcfgChange_eq_ok hc
  obtain hpath : c.address = address := Except.ok.inj (hpath.symm.trans haddress)
  have hat : At state (state s.tree) s.files s := ⟨rfl, rfl⟩
  have hread : c.method = (state s.tree).method := by
    rw [hpath, hlaws.get _ _ List.mem_cons_self] at hmethod
    exact (Except.ok.inj hmethod).symm
  rw [hpath, hread, hrsi] at hmembers
  -- the steps can be made in the other order
  obtain ⟨haccepts, hend⟩ := at_of_members hlaws hat hunordered.words hmembers
  obtain ⟨haccepts', hsame⟩ := unordered_exchange.accepts h.perm hunordered haccepts
  have hunordered' := hunordered.perm h.perm
  obtain ⟨now', s₁', hmembers'⟩ := members_of_accepts hlaws hat hunordered'.words haccepts'
  obtain ⟨-, hend'⟩ := at_of_members hlaws hat hunordered'.words hmembers'
  rw [hsame] at hend'
  have hsaved : state (Augtool.save api.toAugeas s₁).tree =
      state (Augtool.save api.toAugeas s₁').tree := by
    rw [Augtool.save_tree, Augtool.save_tree, hend.2, hend'.2]
    exact hlaws.save _ _ _ (hend.1.trans hend'.1.symm)
  obtain ⟨hs', hcheck, hanswer⟩ := run_commitNetcfg_eq_ok.mp hcommit
  rw [hs', checkFiles_congr hlaws hsaved] at hcheck
  rw [hs', hpath, netcfgAnswer_congr hlaws hsaved, h.iface] at hanswer
  have hrun' : run (putNetcfg api req') s = (.ok a, Augtool.save api.toAugeas s₁') := by
    refine run_putNetcfg_eq_ok.mpr ⟨_, hc', now', s₁', ?_, ?_⟩
    · dsimp only
      rw [hpath, hread]
      exact hmembers'
    · dsimp only
      rw [hpath]
      exact run_commitNetcfg_eq_ok.mpr ⟨rfl, hcheck, hanswer⟩
  refine ⟨⟨a, _, hrun'⟩, ?_⟩
  rw [hrun, hrun', hs']
  exact hsaved

/-- The order of the members does not matter, unless the method switches between `static` and
another one. -/
theorem order_not_seen (hlaws : InterfaceLaws api address state interfaces)
    (h : SameMembers req req' members members')
    (haddress : cmdOut api s.tree ("match /files/etc/network/interfaces/iface[*] " ++ req.iface)
      false "" = .ok address)
    (hunordered : Unordered (state s.tree) members) :
    (GoesThrough (putNetcfg api req) s ↔ GoesThrough (putNetcfg api req') s) ∧
      (GoesThrough (putNetcfg api req) s →
        state (run (putNetcfg api req) s).2.tree = state (run (putNetcfg api req') s).2.tree) := by
  have haddress' : cmdOut api s.tree ("match /files/etc/network/interfaces/iface[*] " ++ req'.iface)
      false "" = .ok address := h.iface ▸ haddress
  constructor
  · constructor
    · intro hthrough
      exact (same_outcome hlaws h haddress hunordered hthrough).1
    · intro hthrough
      exact (same_outcome hlaws h.symm haddress' (hunordered.perm h.perm) hthrough).1
  · intro hthrough
    exact (same_outcome hlaws h haddress hunordered hthrough).2

end

/-- An address and a gateway. -/
def addressGateway : List (String × Json) :=
  [("address", .str "10.0.0.5"), ("gateway", .str "10.0.0.5")]

theorem order_not_seen_gateway :
    (GoesThrough (putNetcfg nodesNetcfg (eth0Request addressGateway)) (eth0With "static") ↔
        GoesThrough (putNetcfg nodesNetcfg (eth0Request addressGateway.reverse))
          (eth0With "static")) ∧
      (GoesThrough (putNetcfg nodesNetcfg (eth0Request addressGateway)) (eth0With "static") →
        nodesState (run (putNetcfg nodesNetcfg (eth0Request addressGateway))
            (eth0With "static")).2.tree =
          nodesState (run (putNetcfg nodesNetcfg (eth0Request addressGateway.reverse))
            (eth0With "static")).2.tree) := by
  have hsame : SameMembers (eth0Request addressGateway) (eth0Request addressGateway.reverse)
      addressGateway addressGateway.reverse :=
    ⟨rfl, rfl, ⟨_, rfl, rfl⟩, ⟨_, rfl, rfl⟩, (List.reverse_perm _).symm⟩
  have hnames : ∀ name ∈ addressGateway.map Prod.fst, name ≠ "method" := by decide
  have hno (it : String × Json) (hit : it ∈ addressGateway) : it.1 ≠ "method" :=
    hnames it.1 (List.mem_map.mpr ⟨it, hit, rfl⟩)
  refine order_not_seen nodesNetcfg_laws hsame rfl ⟨by decide, ?_, ?_⟩
  · exact fun it hit hname ↦ absurd hname (hno it hit)
  · exact fun it hit hname ↦ absurd hname (hno it hit)

theorem eth0With_method (method : String) :
    (nodesState (eth0With method).tree).method = method := by
  unfold IfaceState.method
  rw [(eth0With_settings method).1]
  rfl

/-- A switch to `static` with an address. -/
def staticAddress : List (String × Json) :=
  [("method", .str "static"), ("address", .str "10.0.0.5")]

/-- A switch to `static` with a name server. -/
def staticServer : List (String × Json) :=
  [("method", .str "static"), ("nameservers", .array [.str "10.0.0.5"])]

/-- A method that is two lines of `augtool`. -/
def brokenMethod : String × Json := ("method", .str ("static\nrm " ++ eth0Path ++ "/address"))

def brokenAddress : List (String × Json) := [brokenMethod, ("address", .str "10.0.0.5")]

theorem settable_address (method : String) :
    Settable nodesNetcfg method ("address", .str "10.0.0.5") ↔ method = "static" := by
  constructor
  · intro hset
    exact (hset.address rfl).2
  · intro hmethod
    exact ⟨Or.inr (Or.inl rfl), fun _ ↦ ⟨by decide +kernel, hmethod⟩, fun h ↦ absurd h (by decide),
      fun h ↦ absurd h.1 (by decide), fun h ↦ absurd h (by decide)⟩

theorem settable_server (method : String) :
    Settable nodesNetcfg method ("nameservers", .array [.str "10.0.0.5"]) where
  known := Or.inr (Or.inr (Or.inr (Or.inr rfl)))
  address h := absurd h (by decide)
  netmask h := absurd h (by decide)
  gateway h := absurd h.1 (by decide)
  nameservers _ := ⟨"10.0.0.5", by decide +kernel⟩

theorem staticAddress_accepts :
    Accepts (IfaceState.Ok nodesNetcfg) nodesStep (nodesState (eth0With "dhcp").tree)
      staticAddress :=
  ⟨⟨fun _ ↦ by rw [eth0With_method]; decide, settable_method rfl _⟩,
    ⟨fun h ↦ absurd h (by decide), (settable_address _).mpr rfl⟩, trivial⟩

theorem staticAddress_not_accepts :
    ¬ Accepts (IfaceState.Ok nodesNetcfg) nodesStep (nodesState (eth0With "dhcp").tree)
      staticAddress.reverse := by
  rintro ⟨⟨-, hset⟩, -⟩
  rw [setMethod_of_ne (by decide), eth0With_method] at hset
  exact absurd ((settable_address "dhcp").mp hset) (by decide)

theorem staticServer_accepts :
    Accepts (IfaceState.Ok nodesNetcfg) nodesStep (nodesState (eth0With "dhcp").tree)
        staticServer ∧
      Accepts (IfaceState.Ok nodesNetcfg) nodesStep (nodesState (eth0With "dhcp").tree)
        staticServer.reverse := by
  constructor
  · exact ⟨⟨fun _ ↦ by rw [eth0With_method]; decide, settable_method rfl _⟩,
      ⟨fun h ↦ absurd h (by decide), settable_server _⟩, trivial⟩
  · refine ⟨⟨fun h ↦ absurd h (by decide), settable_server _⟩,
      ⟨fun _ ↦ ?_, settable_method rfl _⟩, trivial⟩
    rw [method_setMember (by decide), eth0With_method]
    decide

theorem words_staticAddress : MethodWords staticAddress := by
  simp only [MethodWords, staticAddress, List.forall_mem_cons]
  exact ⟨fun _ ↦ by decide, fun h ↦ absurd h (by decide), by simp⟩

theorem words_staticServer : MethodWords staticServer := by
  simp only [MethodWords, staticServer, List.forall_mem_cons]
  exact ⟨fun _ ↦ by decide, fun h ↦ absurd h (by decide), by simp⟩

theorem runCmds_lines {cmd : String} {s : Augtool Nodes Nodes} : runCmds nodesNetcfg [cmd] s =
    (Augtool.commandLines cmd).foldl (Augtool.runLine nodesNetcfg.toAugeas) s := rfl

/-- The method with two lines sets the method and removes the address. -/
def brokenStep (st : IfaceState Unit) : IfaceState Unit :=
  let settings := Function.update st.settings "method" (some "static")
  { st with settings := Function.update settings "address" none }

theorem brokenMethod_step {s : Augtool Nodes Nodes} {st : IfaceState Unit} {files : Nodes}
    (h : At nodesState st files s) :
    ∃ s', run (setMember nodesNetcfg eth0Path "static" brokenMethod) s = (.ok "static", s') ∧
      At nodesState (brokenStep st) files s' := by
  -- the value of the member has a second line, which is a command of its own
  have hlines : runCmds nodesNetcfg (setCommands eth0Path "method" brokenMethod) s =
      runCmds nodesNetcfg ["rm " ++ eth0Path ++ "/" ++ "address"]
        (runCmds nodesNetcfg ["set " ++ eth0Path ++ "/" ++ "method" ++ " " ++ "static"] s) := by
    have hcmd : Augtool.commandLines ("set " ++ eth0Path ++ "/" ++ "method" ++ " " ++
        brokenMethod.2.getValue) =
          Augtool.commandLines ("set " ++ eth0Path ++ "/" ++ "method" ++ " " ++ "static") ++
            Augtool.commandLines ("rm " ++ eth0Path ++ "/" ++ "address") := by
      have hpath : '\n' ∉ eth0Path.toList := eth0Path_chars.2.2
      have hset := set_line hpath (show "method" ∈ settingNames by decide)
        (show Word "static" by decide)
      have hrm := rm_line hpath (show "address" ∈ settingNames by decide)
      have hne : "rm " ++ eth0Path ++ "/" ++ "address" ≠ "" := by
        simp [String.append_eq_empty_iff]
      have hvalue : brokenMethod.2.getValue =
          "static" ++ "\n" ++ ("rm " ++ eth0Path ++ "/" ++ "address") := by
        show "static\nrm " ++ eth0Path ++ "/address" = _
        rw [show "static\nrm " = "static" ++ "\n" ++ "rm " by decide, ← slash_address]
        simp only [String.append_assoc]
      have hcmd : "set " ++ eth0Path ++ "/" ++ "method" ++ " " ++ brokenMethod.2.getValue =
          "set " ++ eth0Path ++ "/" ++ "method" ++ " " ++ "static" ++ "\n" ++
            ("rm " ++ eth0Path ++ "/" ++ "address") := by
        rw [hvalue]
        simp only [String.append_assoc]
      rw [hcmd, Augtool.commandLines_two hset hrm hne, Augtool.commandLines_line hset,
        Augtool.commandLines_line hrm]
      rfl
    have hset : setCommands eth0Path "method" brokenMethod =
        ["set " ++ eth0Path ++ "/" ++ "method" ++ " " ++ brokenMethod.2.getValue] := if_pos rfl
    rw [hset, runCmds_lines, runCmds_lines, runCmds_lines]
    rw [← List.foldl_append, ← hcmd]
  have hat : At nodesState (brokenStep st) files
      (runCmds nodesNetcfg (setCommands eth0Path "method" brokenMethod) s) := by
    rw [hlines]
    exact (h.set nodesNetcfg_laws (by decide) (by decide)).rm nodesNetcfg_laws (by decide)
  refine ⟨_, run_setMember_eq_ok.mpr ⟨⟨fun _ ↦ by decide, ?_, settable_method rfl _⟩, rfl⟩, ?_⟩
  · rw [nodesNetcfg_laws.get _ _ List.mem_cons_self, hat.1]
    rfl
  · rw [afterMember_method rfl]
    exact hat

theorem address_step {s : Augtool Nodes Nodes} {st : IfaceState Unit} {files : Nodes}
    (h : At nodesState st files s) (hmethod : st.method = "static") :
    ∃ s', run (setMember nodesNetcfg eth0Path "static" ("address", .str "10.0.0.5")) s =
        (.ok "static", s') ∧
      At nodesState (nodesStep st ("address", .str "10.0.0.5")) files s' := by
  have hnot : ("address", Json.str "10.0.0.5").1 ≠ "method" := by decide
  have hok : st.Ok nodesNetcfg ("address", .str "10.0.0.5") :=
    ⟨fun h ↦ absurd h hnot, (settable_address _).mpr (by rw [setMethod_of_ne hnot, hmethod])⟩
  have hrun := run_setMember_eq_ok.mpr
    ⟨(passes_iff nodesNetcfg_laws h fun h ↦ absurd h hnot).mpr ⟨rfl, hok⟩, rfl⟩
  obtain ⟨-, -, hat⟩ := run_setMember_iff nodesNetcfg_laws h (fun h ↦ absurd h hnot) hrun
  rw [setMethod_of_ne hnot, hmethod] at hrun hat
  exact ⟨_, hrun, hat⟩

theorem brokenAddress_leaves :
    GoesThrough (putNetcfg nodesNetcfg (eth0Request brokenAddress)) (eth0With "static") ∧
      (nodesState (netcfgStep nodesNetcfg (eth0With "static")
        (eth0Request brokenAddress)).1.tree).settings "address" = some "10.0.0.5" := by
  have hat : At nodesState (nodesState (eth0With "static").tree) (eth0With "static").files
      (eth0With "static") := ⟨rfl, rfl⟩
  obtain ⟨s₁, hfirst, hat₁⟩ := brokenMethod_step hat
  obtain ⟨s₂, hsecond, hat₂⟩ := address_step hat₁ rfl
  have hrun : run (brokenAddress.foldlM (setMember nodesNetcfg eth0Path)
      (nodesState (eth0With "static").tree).method) (eth0With "static") = (.ok "static", s₂) := by
    rw [eth0With_method, brokenAddress, List.foldlM_cons, run_bind_ok hfirst, List.foldlM_cons,
      run_bind_ok hsecond, List.foldlM_nil, run_pure]
  obtain ⟨hthrough, hstate⟩ := nodes_of_members hrun (by rw [hat₂.1]; rfl)
  refine ⟨hthrough, ?_⟩
  rw [hstate, hat₂.1]
  rfl

theorem brokenAddress_reverse_leaves :
    GoesThrough (putNetcfg nodesNetcfg (eth0Request brokenAddress.reverse)) (eth0With "static") ∧
      (nodesState (netcfgStep nodesNetcfg (eth0With "static")
        (eth0Request brokenAddress.reverse)).1.tree).settings "address" = none := by
  have hat : At nodesState (nodesState (eth0With "static").tree) (eth0With "static").files
      (eth0With "static") := ⟨rfl, rfl⟩
  obtain ⟨s₁, hfirst, hat₁⟩ := address_step hat (eth0With_method "static")
  obtain ⟨s₂, hsecond, hat₂⟩ := brokenMethod_step hat₁
  have hrun : run (brokenAddress.reverse.foldlM (setMember nodesNetcfg eth0Path)
      (nodesState (eth0With "static").tree).method) (eth0With "static") = (.ok "static", s₂) := by
    rw [eth0With_method, brokenAddress, List.reverse_cons, List.reverse_singleton,
      List.singleton_append, List.foldlM_cons, run_bind_ok hfirst, List.foldlM_cons, run_bind_ok hsecond,
      List.foldlM_nil, run_pure]
  obtain ⟨hthrough, hstate⟩ := nodes_of_members hrun (by rw [hat₂.1]; rfl)
  refine ⟨hthrough, ?_⟩
  rw [hstate, hat₂.1]
  rfl

/-- The order of the members decides whether an address is accepted behind a switch to `static`,
whether name servers in front of it leave the old address, and what a method of two lines
leaves. -/
theorem order_is_seen :
    (GoesThrough (putNetcfg nodesNetcfg (eth0Request staticAddress)) (eth0With "dhcp") ∧
        ¬ GoesThrough (putNetcfg nodesNetcfg (eth0Request staticAddress.reverse))
          (eth0With "dhcp")) ∧
      (GoesThrough (putNetcfg nodesNetcfg (eth0Request staticServer)) (eth0With "dhcp") ∧
        GoesThrough (putNetcfg nodesNetcfg (eth0Request staticServer.reverse)) (eth0With "dhcp") ∧
        (nodesState (netcfgStep nodesNetcfg (eth0With "dhcp")
            (eth0Request staticServer)).1.tree).settings "address" ≠
          (nodesState (netcfgStep nodesNetcfg (eth0With "dhcp")
            (eth0Request staticServer.reverse)).1.tree).settings "address") ∧
      (GoesThrough (putNetcfg nodesNetcfg (eth0Request brokenAddress)) (eth0With "static") ∧
        GoesThrough (putNetcfg nodesNetcfg (eth0Request brokenAddress.reverse))
          (eth0With "static") ∧
        (nodesState (netcfgStep nodesNetcfg (eth0With "static")
            (eth0Request brokenAddress)).1.tree).settings "address" ≠
          (nodesState (netcfgStep nodesNetcfg (eth0With "static")
            (eth0Request brokenAddress.reverse)).1.tree).settings "address") := by
  refine ⟨⟨?_, ?_⟩, ?_, ?_⟩
  · exact (nodes_goesThrough words_staticAddress staticAddress_accepts rfl).1
  · intro hthrough
    exact staticAddress_not_accepts
      (nodes_accepts (fun it hit ↦ words_staticAddress it (List.mem_reverse.mp hit)) hthrough)
  · have hthrough := nodes_goesThrough words_staticServer staticServer_accepts.1 rfl
    have hthrough' := nodes_goesThrough
      (fun it hit ↦ words_staticServer it (List.mem_reverse.mp hit)) staticServer_accepts.2 rfl
    refine ⟨hthrough.1, hthrough'.1, ?_⟩
    rw [hthrough.2, hthrough'.2]
    decide +kernel
  · obtain ⟨hthrough, hstate⟩ := brokenAddress_leaves
    obtain ⟨hthrough', hstate'⟩ := brokenAddress_reverse_leaves
    refine ⟨hthrough, hthrough', ?_⟩
    rw [hstate, hstate']
    decide

end FtyRest.Ecpp
