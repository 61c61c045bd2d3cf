import FtyRest.Ecpp.NetcfgPut

/-!
# The settings of an interface

What the members of a request do to the tree, once the commands of `augtool` mean what they say: an
interface is a record of settings, and each member is one step on it.
-/

namespace FtyRest.Ecpp

open Checks History Reorder Shared StateExcept

/-- What the tree tells: the settings of an interface, the name servers of every interface, and all
the rest. -/
@[ext]
structure IfaceState (ρ : Type) where
  settings : String → Option String
  servers : String → Option String
  rest : ρ

/-- Words and blanks. -/
def Words (text : String) : Prop := ∀ c ∈ text.toList, WordChar c ∨ c = ' '

def matchInterfaces : String := "match /files/etc/network/interfaces/iface[*]"

/-- The commands whose output decides about a request once its members are set. -/
def readCommands (address : String) : List String :=
  ["ls /augeas/files/etc/network/interfaces/error", "ls /augeas/files/etc/resolv.conf/error",
    "get " ++ address ++ "/" ++ "method", "get " ++ address ++ "/" ++ "address",
    "get " ++ address ++ "/" ++ "netmask", "get " ++ address ++ "/" ++ "gateway",
    "match /files/etc/network/interfaces/iface[*]/dns-nameservers"]

/-- What is known of `augtool`, about the interface with the path `address`: `set` and `rm` change
the node that they name and nothing else, and the order in which nodes were set is not seen. -/
structure InterfaceLaws {τ φ ρ : Type} (api : NetcfgApi τ φ) (address : String)
    (state : τ → IfaceState ρ) (interfaces : ρ → List String) : Prop where
  address_line : '\n' ∉ address.toList
  get : ∀ tree, ∀ name ∈ settingNames,
    augGet api tree address name = .ok (((state tree).settings name).getD "")
  set : ∀ tree, ∀ name ∈ settingNames, ∀ value, Word value →
    state (api.edit tree ("set " ++ address ++ "/" ++ name ++ " " ++ value)) =
      { state tree with
        settings := Function.update (state tree).settings name (some value) }
  rm : ∀ tree, ∀ name ∈ settingNames,
    state (api.edit tree ("rm " ++ address ++ "/" ++ name)) =
      { state tree with settings := Function.update (state tree).settings name none }
  targets : ∀ tree,
    (api.output tree matchInterfaces).filterMap dnsIface = interfaces (state tree).rest
  interface_line : ∀ r, ∀ sub ∈ interfaces r, '\n' ∉ sub.toList
  setServers : ∀ tree, ∀ sub ∈ interfaces (state tree).rest, ∀ list, list ≠ "" → Words list →
    state (api.edit tree ("set " ++ sub ++ "/dns-nameservers '" ++ list ++ "'")) =
      { state tree with servers := Function.update (state tree).servers sub (some list) }
  rmServers : ∀ tree, ∀ sub ∈ interfaces (state tree).rest,
    state (api.edit tree ("rm " ++ sub ++ "/dns-nameservers")) =
      { state tree with servers := Function.update (state tree).servers sub none }
  read : ∀ tree tree', state tree = state tree' → ∀ cmd ∈ readCommands address,
    api.output tree cmd = api.output tree' cmd
  save : ∀ tree tree' files, state tree = state tree' →
    state (api.save tree files).1 = state (api.save tree' files).1
  save_settings : ∀ tree files,
    (state (api.save tree files).1).settings = (state tree).settings
  other : ∀ tree iface path,
    cmdOut api tree ("match /files/etc/network/interfaces/iface[*] " ++ iface) false "" =
      .ok path → path ≠ address →
    '\n' ∉ path.toList ∧ ∀ tree, ∀ name ∈ settingNames,
      (∀ value, Word value →
        (state (api.edit tree ("set " ++ path ++ "/" ++ name ++ " " ++ value))).settings =
          (state tree).settings) ∧
      (state (api.edit tree ("rm " ++ path ++ "/" ++ name))).settings = (state tree).settings
  cidr : ∀ text cidr, api.cidrFromStr text = some cidr → Word text

/-! ## The steps -/

namespace IfaceState

variable {ρ : Type} {τ φ : Type} (api : NetcfgApi τ φ) (interfaces : ρ → List String)

def method (st : IfaceState ρ) : String := (st.settings "method").getD ""

def setMethod (st : IfaceState ρ) (it : String × Json) : IfaceState ρ :=
  if it.1 = "method" then
    { st with settings := Function.update st.settings "method" (some it.2.getValue) }
  else st

/-- What a member gives: an empty text removes. -/
def given (it : String × Json) : Option String :=
  if it.2.getValue = "" then none else some it.2.getValue

/-- The settings after a member, when its method has been set. -/
def memberSettings (now : String) (it : String × Json) (settings : String → Option String) :
    String → Option String := fun name ↦
  if name ∈ staticNames then
    if now ≠ "static" then none
    else if name = it.1 then given it
    else settings name
  else settings name

/-- An empty list of name servers removes them. -/
def serverList (list : String) : Option String := if list = "" then none else some list

def memberServers (targets : List String) (it : String × Json) (servers : String → Option String) :
    String → Option String := fun sub ↦
  if it.1 = "nameservers" ∧ sub ∈ targets then
    match nsList api it.2 with
    | .ok list => serverList list
    | .error _ => servers sub
  else servers sub

def setMember (st : IfaceState ρ) (it : String × Json) : IfaceState ρ :=
  let st := st.setMethod it
  { settings := memberSettings st.method it st.settings
    servers := memberServers api (interfaces st.rest) it st.servers
    rest := st.rest }

/-- The member passes its checks. -/
def Ok (st : IfaceState ρ) (it : String × Json) : Prop :=
  (it.1 = "method" → rexMethod st.method = true) ∧ Settable api (st.setMethod it).method it

end IfaceState

/-! ## The commands -/

section

variable {τ φ : Type} {api : NetcfgApi τ φ} {s : Augtool τ φ}

theorem Words.line {text : String} (h : Words text) : '\n' ∉ text.toList := by
  intro hmem
  rcases h _ hmem with hword | hblank
  · exact not_wordChar_newline hword
  · exact absurd hblank (by decide)

theorem kind_rm_cmd (path name : String) :
    api.kind ("rm " ++ path ++ "/" ++ name) = .edit := by
  rw [String.append_assoc, String.append_assoc]
  exact api.kind_rm _

theorem path_append (path : String) {a b tail : String} (h : a ++ b = tail) :
    path ++ a ++ b = path ++ tail := by
  rw [String.append_assoc, h]

theorem slash_address : "/" ++ "address" = "/address" := by decide

theorem slash_netmask : "/" ++ "netmask" = "/netmask" := by decide

theorem slash_gateway : "/" ++ "gateway" = "/gateway" := by decide

theorem gateway_blank : "/gateway" ++ " " = "/gateway " := by decide

theorem rm_line {path name : String} (hpath : '\n' ∉ path.toList)
    (hname : name ∈ settingNames) : '\n' ∉ ("rm " ++ path ++ "/" ++ name).toList := by
  have hname : '\n' ∉ name.toList := by
    revert hname name
    decide
  simp only [String.toList_append, List.mem_append, not_or]
  exact ⟨⟨⟨by decide, hpath⟩, by decide⟩, hname⟩

end

/-! ## What the commands do -/

section

variable {τ φ ρ : Type} {api : NetcfgApi τ φ} {address : String} {state : τ → IfaceState ρ}
  {interfaces : ρ → List String} {s : Augtool τ φ} {st : IfaceState ρ} {files : φ}

/-- What libcidr takes is a word. -/
theorem InterfaceLaws.word_of_valid (hlaws : InterfaceLaws api address state interfaces)
    {text : String} (h : (cidrAddress api text).valid = true) : Word text := by
  cases hcidr : api.cidrFromStr text with
  | none =>
    simp [cidrAddress, hcidr, CIDRAddress.valid] at h
  | some cidr => exact hlaws.cidr text cidr hcidr

theorem InterfaceLaws.word_of_netmask (hlaws : InterfaceLaws api address state interfaces)
    {text : String} (h : isNetmask api (cidrAddress api text) = true) : Word text := by
  apply hlaws.word_of_valid
  unfold isNetmask at h
  split at h
  · cases h
  · -- an address has a protocol only when it is valid
    rename_i hfour
    unfold CIDRAddress.protocol at hfour
    split at hfour
    · split at hfour
      · assumption
      · exact absurd hfour (by decide)
    · split at hfour
      · assumption
      · exact absurd hfour (by decide)
    · exact absurd hfour (by decide)

/-- The tree tells `st`, and the files are those. -/
def At (state : τ → IfaceState ρ) (st : IfaceState ρ) (files : φ) (s : Augtool τ φ) : Prop :=
  state s.tree = st ∧ s.files = files

theorem At.set (hlaws : InterfaceLaws api address state interfaces) (h : At state st files s)
    {name value : String} (hname : name ∈ settingNames) (hvalue : Word value) :
    At state { st with settings := Function.update st.settings name (some value) } files
      (runCmds api ["set " ++ address ++ "/" ++ name ++ " " ++ value] s) := by
  rw [runCmds_edit (kind_set_cmd _ _ _) (set_line hlaws.address_line hname hvalue)]
  constructor
  · show state (api.edit s.tree _) = _
    rw [hlaws.set s.tree name hname value hvalue, h.1]
  · exact h.2

theorem At.rm (hlaws : InterfaceLaws api address state interfaces) (h : At state st files s)
    {name : String} (hname : name ∈ settingNames) :
    At state { st with settings := Function.update st.settings name none } files
      (runCmds api ["rm " ++ address ++ "/" ++ name] s) := by
  rw [runCmds_edit (kind_rm_cmd _ _) (rm_line hlaws.address_line hname)]
  constructor
  · show state (api.edit s.tree _) = _
    rw [hlaws.rm s.tree name hname, h.1]
  · exact h.2

/-- One of the settings that a member may set. -/
theorem At.afterSet (hlaws : InterfaceLaws api address state interfaces)
    (h : At state st files s) {name : String} (hname : name ∈ settingNames) {it : String × Json}
    (hword : it.1 = name → Word it.2.getValue) :
    At state { st with settings := if it.1 = name then
        Function.update st.settings name (some it.2.getValue) else st.settings } files
      (runCmds api (setCommands address name it) s) := by
  unfold setCommands
  by_cases hit : it.1 = name
  · simp only [if_pos hit]
    exact h.set hlaws hname (hword hit)
  · simp only [if_neg hit]
    exact h

theorem At.afterMethod (hlaws : InterfaceLaws api address state interfaces)
    (h : At state st files s) {it : String × Json} (hword : it.1 = "method" → Word it.2.getValue) :
    At state (st.setMethod it) files (runCmds api (setCommands address "method" it) s) := by
  have hset := h.afterSet hlaws List.mem_cons_self hword
  unfold IfaceState.setMethod
  by_cases hit : it.1 = "method"
  · simpa only [if_pos hit] using hset
  · simpa only [if_neg hit] using hset

theorem At.afterRm (hlaws : InterfaceLaws api address state interfaces)
    (h : At state st files s) (now : String) :
    At state { st with settings := fun name ↦
        if now ≠ "static" ∧ name ∈ staticNames then none else st.settings name } files
      (runCmds api (rmCommands address now) s) := by
  unfold rmCommands
  by_cases hnow : now ≠ "static"
  · rw [if_pos hnow]
    have haddress := h.rm hlaws (show "address" ∈ settingNames by decide)
    have hnetmask := haddress.rm hlaws (show "netmask" ∈ settingNames by decide)
    have hgateway := hnetmask.rm hlaws (show "gateway" ∈ settingNames by decide)
    rw [path_append _ slash_address] at haddress hnetmask hgateway
    rw [path_append _ slash_netmask] at hnetmask hgateway
    rw [path_append _ slash_gateway] at hgateway
    -- the three names, one after the other, are all of `staticNames`
    have hsettings : (fun name ↦ if now ≠ "static" ∧ name ∈ staticNames then none
        else st.settings name) =
        Function.update (Function.update (Function.update st.settings "address" none)
          "netmask" none) "gateway" none := by
      funext name
      by_cases hstatic : name ∈ staticNames
      · rw [if_pos ⟨hnow, hstatic⟩]
        simp only [staticNames, List.mem_cons, List.not_mem_nil, or_false] at hstatic
        rcases hstatic with rfl | rfl | rfl <;> simp
      · rw [if_neg fun h ↦ hstatic h.2]
        simp only [staticNames, List.mem_cons, List.not_mem_nil, or_false, not_or] at hstatic
        simp [hstatic]
    rw [hsettings, runCmds_cons, runCmds_cons]
    exact hgateway
  · rw [if_neg hnow]
    simp only [hnow, false_and, if_false, runCmds_nil]
    exact h

theorem At.afterGateway (hlaws : InterfaceLaws api address state interfaces)
    (h : At state st files s) {now : String} {it : String × Json} (hset : Settable api now it) :
    At state { st with settings := if it.1 = "gateway" ∧ now = "static" then
        Function.update st.settings "gateway" (IfaceState.given it) else st.settings } files
      (runCmds api (gatewayCommands address now it) s) := by
  unfold gatewayCommands
  by_cases hit : it.1 = "gateway" ∧ now = "static"
  · simp only [if_pos hit]
    by_cases hvalue : it.2.getValue = ""
    · simp only [if_pos hvalue, IfaceState.given]
      have hrm := h.rm hlaws (show "gateway" ∈ settingNames by decide)
      rw [path_append _ slash_gateway] at hrm
      exact hrm
    · simp only [if_neg hvalue, IfaceState.given]
      have hword := hlaws.word_of_valid ((hset.gateway hit).resolve_left hvalue)
      have hgateway := h.set hlaws (show "gateway" ∈ settingNames by decide) hword
      rw [path_append _ slash_gateway, path_append _ gateway_blank] at hgateway
      exact hgateway
  · simp only [if_neg hit]
    exact h

/-- The name servers that are set are words. -/
theorem InterfaceLaws.words_of_nsList (hlaws : InterfaceLaws api address state interfaces)
    {doc : Json} {list : String} (h : nsList api doc = .ok list) : Words list := by
  cases doc with
  | array items =>
    obtain ⟨vals, hvals, heq⟩ := bind_eq_ok.mp h
    obtain rfl := pure_eq_ok.mp heq
    have hwords : ∀ val ∈ vals, Word val := by
      intro val hval
      obtain ⟨i, -, hi⟩ := mapM_ok_mem hvals hval
      simp only [bind_eq_ok, require_eq_ok, pure_eq_ok, exists_const] at hi
      obtain ⟨hvalid, rfl⟩ := hi
      exact hlaws.word_of_valid hvalid
    -- the list grows by a word and the blank in front of it
    suffices hfold : ∀ (vals : List String) (list : String), (∀ val ∈ vals, Word val) →
        Words list → Words (vals.foldl
          (fun list val ↦ list ++ (if list = "" then "" else " ") ++ val) list) from
      hfold vals "" hwords (by simp [Words])
    intro vals
    induction vals with
    | nil => exact fun list _ hlist ↦ hlist
    | cons val vals ih =>
      intro list hvals hlist
      apply ih _ fun v hv ↦ hvals v (List.mem_cons_of_mem val hv)
      intro c hc
      simp only [String.toList_append, List.mem_append] at hc
      rcases hc with (hc | hc) | hc
      · exact hlist c hc
      · right
        split at hc
        · simp at hc
        · simpa using hc
      · exact Or.inl ((hvals val List.mem_cons_self).2 c hc)
  | null => cases h
  | str text => cases h
  | int value => cases h
  | object members => cases h

/-- The command that gives the name servers to an interface. -/
def serversCommand (list sub : String) : String :=
  if list = "" then "rm " ++ sub ++ "/dns-nameservers"
  else "set " ++ sub ++ "/dns-nameservers '" ++ list ++ "'"

theorem At.afterServer (hlaws : InterfaceLaws api address state interfaces)
    (h : At state st files s) {sub list : String} (hsub : sub ∈ interfaces st.rest)
    (hlist : Words list) :
    At state
      { st with servers := Function.update st.servers sub (IfaceState.serverList list) } files
      (runCmds api [serversCommand list sub] s) := by
  have hline := hlaws.interface_line st.rest sub hsub
  have hsub : sub ∈ interfaces (state s.tree).rest := h.1 ▸ hsub
  unfold serversCommand IfaceState.serverList
  by_cases hempty : list = ""
  · rw [if_pos hempty, if_pos hempty, runCmds_edit]
    · constructor
      · show state (api.edit s.tree _) = _
        rw [hlaws.rmServers s.tree sub hsub, h.1]
      · exact h.2
    · rw [String.append_assoc]
      exact api.kind_rm _
    · simp only [String.toList_append, List.mem_append, not_or]
      exact ⟨⟨by decide, hline⟩, by decide⟩
  · rw [if_neg hempty, if_neg hempty, runCmds_edit]
    · constructor
      · show state (api.edit s.tree _) = _
        rw [hlaws.setServers s.tree sub hsub list hempty hlist, h.1]
      · exact h.2
    · rw [String.append_assoc, String.append_assoc, String.append_assoc]
      exact api.kind_set _
    · simp only [String.toList_append, List.mem_append, not_or]
      exact ⟨⟨⟨⟨by decide, hline⟩, by decide⟩, hlist.line⟩, by decide⟩

/-- The name servers go to one interface after the other. -/
theorem At.afterServers (hlaws : InterfaceLaws api address state interfaces)
    (h : At state st files s) {list : String} (hlist : Words list) {subs : List String}
    (hsubs : ∀ sub ∈ subs, sub ∈ interfaces st.rest) :
    At state
      { st with servers := fun sub ↦
          if sub ∈ subs then IfaceState.serverList list else st.servers sub } files
      (runCmds api (subs.map (serversCommand list)) s) := by
  induction subs generalizing s st with
  | nil => simpa using h
  | cons sub subs ih =>
    have hfirst := h.afterServer hlaws (hsubs sub List.mem_cons_self) hlist
    have hrest := ih hfirst fun sub' hsub' ↦ hsubs sub' (List.mem_cons_of_mem sub hsub')
    -- an interface that comes twice is given the same list again
    have hservers :
        (fun sub' ↦ if sub' ∈ sub :: subs then IfaceState.serverList list else st.servers sub') =
          fun sub' ↦ if sub' ∈ subs then IfaceState.serverList list
            else Function.update st.servers sub (IfaceState.serverList list) sub' := by
      funext sub'
      by_cases hmem : sub' ∈ subs
      · rw [if_pos hmem, if_pos (List.mem_cons_of_mem sub hmem)]
      · by_cases heq : sub' = sub
        · rw [if_neg hmem, if_pos (heq ▸ List.mem_cons_self), heq, Function.update_self]
        · rw [if_neg hmem, if_neg (by simp [heq, hmem]), Function.update_of_ne heq]
    rw [hservers]
    exact hrest

/-- The commands for the settings, taken together. -/
theorem settings_of_commands {now : String} {it : String × Json} (hset : Settable api now it)
    (hvalue : it.1 = "address" ∨ it.1 = "netmask" → it.2.getValue ≠ "")
    (settings : String → Option String) :
    let settings1 := if it.1 = "address" then
        Function.update settings "address" (some it.2.getValue) else settings
    let settings2 := if it.1 = "netmask" then
        Function.update settings1 "netmask" (some it.2.getValue) else settings1
    let settings3 := fun name ↦
      if now ≠ "static" ∧ name ∈ staticNames then none else settings2 name
    (if it.1 = "gateway" ∧ now = "static" then
        Function.update settings3 "gateway" (IfaceState.given it) else settings3) =
      IfaceState.memberSettings now it settings := by
  intro settings1 settings2 settings3
  have hstatic : it.1 = "address" ∨ it.1 = "netmask" → now = "static" := by
    rintro (h | h)
    · exact (hset.address h).2
    · exact (hset.netmask h).2
  funext name
  have hother (p : Prop) [Decidable p] (f : String → Option String) {key : String}
      (value : Option String) (hne : name ≠ key) :
      (if p then Function.update f key value else f) name = f name := by
    split
    · exact Function.update_of_ne hne _ _
    · rfl
  by_cases hname : name ∈ staticNames
  · by_cases hnow : now = "static"
    · -- nothing is removed from a static interface
      have hkeep : settings3 = settings2 := by
        funext name
        exact if_neg fun h ↦ h.1 hnow
      rw [hkeep]
      simp only [hnow, and_true, IfaceState.memberSettings, if_pos hname, ne_eq, not_true,
        if_false]
      by_cases heq : name = it.1
      · -- the member sets this name
        rw [if_pos heq]
        simp only [staticNames, List.mem_cons, List.not_mem_nil, or_false] at hname
        rcases hname with rfl | rfl | rfl
        · have hne := hvalue (Or.inl heq.symm)
          simp [settings2, settings1, ← heq, IfaceState.given, hne]
        · have hne := hvalue (Or.inr heq.symm)
          simp [settings2, ← heq, IfaceState.given, hne]
        · simp [← heq]
      · rw [if_neg heq]
        have hskip (f : String → Option String) (key : String) (value : Option String) :
            (if it.1 = key then Function.update f key value else f) name = f name := by
          split
          · rename_i hit
            exact Function.update_of_ne (hit ▸ heq) _ _
          · rfl
        calc
          _ = settings2 name := hskip _ _ _
          _ = settings1 name := hskip _ _ _
          _ = settings name := hskip _ _ _
    · -- of an interface that is not static, the name is removed whatever was set before
      simp only [hnow, and_false, if_false]
      show (if _ then _ else _) = _
      rw [if_pos ⟨hnow, hname⟩, IfaceState.memberSettings, if_pos hname, if_pos hnow]
  · -- a name that no member sets here
    have hne {key : String} (hkey : key ∈ staticNames) : name ≠ key := fun h ↦ hname (h ▸ hkey)
    calc
      _ = settings3 name := hother _ _ _ (hne (by decide))
      _ = settings2 name := if_neg fun h ↦ hname h.2
      _ = settings1 name := hother _ _ _ (hne (by decide))
      _ = settings name := hother _ _ _ (hne (by decide))
      _ = _ := by rw [IfaceState.memberSettings, if_neg hname]

/-- The commands after the method make one step of the interface. -/
theorem At.afterChecks (hlaws : InterfaceLaws api address state interfaces)
    (h : At state st files s) {now : String} {it : String × Json} (hset : Settable api now it) :
    At state
      { settings := IfaceState.memberSettings now it st.settings
        servers := IfaceState.memberServers api (interfaces st.rest) it st.servers
        rest := st.rest } files
      (afterMember api address now it s) := by
  have hnetmask (hit : it.1 = "netmask") : Word it.2.getValue :=
    hlaws.word_of_netmask (hset.netmask hit).1
  have hset1 := h.afterSet hlaws (show "address" ∈ settingNames by decide)
    fun hit ↦ hlaws.word_of_valid (hset.address hit).1
  have hset2 := hset1.afterSet hlaws (show "netmask" ∈ settingNames by decide) hnetmask
  have hset3 := (hset2.afterRm hlaws now).afterGateway hlaws hset
  have hvalue : it.1 = "address" ∨ it.1 = "netmask" → it.2.getValue ≠ "" := by
    rintro (hit | hit)
    · exact (hlaws.word_of_valid (hset.address hit).1).1
    · exact (hnetmask hit).1
  have hsettings := settings_of_commands hset hvalue st.settings
  dsimp only at hsettings hset3
  rw [hsettings] at hset3
  unfold afterMember
  dsimp only
  simp only [runCmds_append]
  unfold nameserverCommands IfaceState.memberServers
  by_cases hit : it.1 = "nameservers"
  · obtain ⟨list, hlist⟩ := hset.nameservers hit
    -- the interfaces are read from the tree at hand, which the settings do not touch
    have htargets : dnsCommands api (runCmds api (gatewayCommands address now it)
        (runCmds api (rmCommands address now) (runCmds api (setCommands address "netmask" it)
          (runCmds api (setCommands address "address" it) s)))).tree list =
        (interfaces st.rest).map (serversCommand list) := by
      show (List.filterMap dnsIface (api.output _ matchInterfaces)).map _ = _
      rw [hlaws.targets, hset3.1]
      rfl
    have hservers := hset3.afterServers hlaws (hlaws.words_of_nsList hlist) fun _ hsub ↦ hsub
    simp only [hlist, hit, if_true, true_and, htargets]
    exact hservers
  · simp only [hit, false_and, if_false, runCmds_nil]
    exact hset3

/-! ## The members of a request -/

/-- The texts that the members give for the method are words. -/
def MethodWords (rsi : List (String × Json)) : Prop :=
  ∀ it ∈ rsi, it.1 = "method" → Word it.2.getValue

theorem passes_iff (hlaws : InterfaceLaws api address state interfaces) (h : At state st files s)
    {it : String × Json} (hword : it.1 = "method" → Word it.2.getValue) {now : String} :
    Passes api s address st.method it now ↔
      now = (st.setMethod it).method ∧ st.Ok api it := by
  -- the method is read from the tree, after the member has set it
  have hread : augGet api (runCmds api (setCommands address "method" it) s).tree address "method" =
      .ok (st.setMethod it).method := by
    rw [hlaws.get _ _ List.mem_cons_self, (h.afterMethod hlaws hword).1]
    rfl
  constructor
  · intro hpasses
    have hnow := Except.ok.inj (hread.symm.trans hpasses.read)
    subst hnow
    exact ⟨rfl, hpasses.method, hpasses.settable⟩
  · intro ⟨hnow, hmethod, hset⟩
    subst hnow
    exact ⟨hmethod, hread, hset⟩

/-- A member makes one step of the interface. -/
theorem run_setMember_iff (hlaws : InterfaceLaws api address state interfaces)
    (h : At state st files s) {it : String × Json} (hword : it.1 = "method" → Word it.2.getValue)
    {now : String} {s' : Augtool τ φ} (hrun : run (setMember api address st.method it) s =
      (.ok now, s')) :
    st.Ok api it ∧ now = (st.setMember api interfaces it).method ∧
      At state (st.setMember api interfaces it) files s' := by
  obtain ⟨hpasses, rfl⟩ := run_setMember_eq_ok.mp hrun
  obtain ⟨rfl, hok⟩ := (passes_iff hlaws h hword).mp hpasses
  exact ⟨hok, rfl, (h.afterMethod hlaws hword).afterChecks hlaws hok.2⟩

/-- The members that go through take the interface along the steps. -/
theorem at_of_members (hlaws : InterfaceLaws api address state interfaces)
    (h : At state st files s) {rsi : List (String × Json)} (hwords : MethodWords rsi)
    {now : String} {s' : Augtool τ φ}
    (hrun : run (rsi.foldlM (setMember api address) st.method) s = (.ok now, s')) :
    Accepts (IfaceState.Ok api) (IfaceState.setMember api interfaces) st rsi ∧
      At state (rsi.foldl (IfaceState.setMember api interfaces) st) files s' := by
  induction rsi generalizing s st with
  | nil =>
    obtain ⟨-, rfl⟩ := Prod.mk.inj hrun
    exact ⟨trivial, h⟩
  | cons it rsi ih =>
    rw [List.foldlM_cons] at hrun
    obtain ⟨now', s₁, hfirst, hrest⟩ := run_bind_eq_ok.mp hrun
    obtain ⟨hok, rfl, hat⟩ := run_setMember_iff hlaws h (hwords it List.mem_cons_self) hfirst
    obtain ⟨haccepts, hend⟩ :=
      ih hat (fun it' hit' ↦ hwords it' (List.mem_cons_of_mem it hit')) hrest
    exact ⟨⟨hok, haccepts⟩, hend⟩

/-- Members that the interface accepts go through. -/
theorem members_of_accepts (hlaws : InterfaceLaws api address state interfaces)
    (h : At state st files s) {rsi : List (String × Json)} (hwords : MethodWords rsi)
    (haccepts : Accepts (IfaceState.Ok api) (IfaceState.setMember api interfaces) st rsi) :
    ∃ now s', run (rsi.foldlM (setMember api address) st.method) s = (.ok now, s') := by
  induction rsi generalizing s st with
  | nil => exact ⟨_, _, rfl⟩
  | cons it rsi ih =>
    obtain ⟨hok, hrest⟩ := haccepts
    have hword := hwords it List.mem_cons_self
    have hfirst : run (setMember api address st.method it) s = _ :=
      run_setMember_eq_ok.mpr ⟨(passes_iff hlaws h hword).mpr ⟨rfl, hok⟩, rfl⟩
    obtain ⟨-, -, hat⟩ := run_setMember_iff hlaws h hword hfirst
    obtain ⟨now, s', hrun⟩ :=
      ih hat (fun it' hit' ↦ hwords it' (List.mem_cons_of_mem it hit')) hrest
    refine ⟨now, s', ?_⟩
    rw [List.foldlM_cons, run_bind_ok hfirst]
    exact hrun

theorem run_commitNetcfg_eq_ok {iface path : String} {a : NetcfgAnswer} {s' : Augtool τ φ} :
    run (commitNetcfg api iface path) s = (.ok a, s') ↔
      s' = Augtool.save api.toAugeas s ∧ checkFiles api s'.tree = .ok () ∧
        netcfgAnswer api s'.tree iface path = .ok a := by
  unfold commitNetcfg
  rw [run_bind_ok run_change, run_bind_eq_ok]
  simp only [run_look, Prod.mk.injEq]
  constructor
  · intro ⟨(), _, ⟨hcheck, hs⟩, hanswer, hs'⟩
    subst hs hs'
    exact ⟨rfl, hcheck, hanswer⟩
  · intro ⟨hs', hcheck, hanswer⟩
    subst hs'
    exact ⟨(), _, ⟨hcheck, rfl⟩, hanswer, rfl⟩

/-- A request that goes through has gone through its members. -/
theorem run_putNetcfg_eq_ok {req : NetcfgRequest} {a : NetcfgAnswer} {s' : Augtool τ φ} :
    run (putNetcfg api req) s = (.ok a, s') ↔
      ∃ c, netcfgChange api s.tree req = .ok c ∧ ∃ now s₁,
        run (c.rsi.foldlM (setMember api c.address) c.method) s = (.ok now, s₁) ∧
        run (commitNetcfg api req.iface c.address) s₁ = (.ok a, s') := by
  rw [run_putNetcfg]
  cases hc : netcfgChange api s.tree req with
  | error e => simp
  | ok c => simp only [run_bind_eq_ok, Except.ok.injEq, exists_eq_left']

theorem netcfgChange_eq_ok {tree : τ} {req : NetcfgRequest} {c : NetcfgChange}
    (h : netcfgChange api tree req = .ok c) :
    cmdOut api tree ("match /files/etc/network/interfaces/iface[*] " ++ req.iface) false "" =
        .ok c.address ∧
      augGet api tree c.address "method" = .ok c.method ∧
      ∃ doc si, req.body = .ok doc ∧ doc.getMember req.iface = some si ∧ c.rsi = si.members := by
  simp only [netcfgChange, bind_eq_ok, pure_eq_ok, require_eq_ok, mapError_eq_ok, orThrow_eq_ok,
    exists_const] at h
  obtain ⟨-, -, -, -, -, path, hpath, -, method, hmethod, doc, hdoc, si, hsi, rfl⟩ := h
  exact ⟨hpath, hmethod, doc, si, hdoc, hsi, rfl⟩

end

/-! ## A tree of nodes -/

/-- Paths and their values. -/
abbrev Nodes := String → Option String

def eth0Path : String := "/files/etc/network/interfaces/iface[1]"

theorem eth0Path_chars :
    '=' ∉ eth0Path.toList ∧ ' ' ∉ eth0Path.toList ∧ '\n' ∉ eth0Path.toList := by
  rw [eth0Path, String.toList_ofList]
  decide

def nodesEdit (tree : Nodes) (line : String) : Nodes :=
  if "set ".toList <+: line.toList then
    let path := (line.toList.drop 4).takeWhile (· ≠ ' ')
    let value := (line.toList.drop (path.length + 5)).filter (· ≠ '\'')
    Function.update tree (String.ofList path) (some (String.ofList value))
  else if "rm ".toList <+: line.toList then
    Function.update tree (String.ofList (line.toList.drop 3)) none
  else tree

def nodeLine (tree : Nodes) (path : String) : String :=
  match tree path with
  | some value => path ++ " = " ++ value
  | none => path ++ " (o)"

def nodesOutput (tree : Nodes) (cmd : String) : List String :=
  let lines : List String :=
    if cmd = matchInterfaces then [eth0Path ++ " = eth0"]
    else if cmd = "match /files/etc/network/interfaces/iface[*] eth0" then [eth0Path]
    else if cmd = "match /files/etc/network/interfaces/iface[*]/dns-nameservers" then
      [nodeLine tree (eth0Path ++ "/dns-nameservers")]
    else if "get ".toList <+: cmd.toList then
      [nodeLine tree (String.ofList (cmd.toList.drop 4))]
    else []
  cmd :: lines ++ ["augtool> "]

def nodesNetcfg : NetcfgApi Nodes Nodes where
  kind := plainKind
  edit := nodesEdit
  load := id
  save := fun tree _ ↦ (tree, some tree)
  output := nodesOutput
  kind_save := plainNetcfg.kind_save
  kind_set := plainNetcfg.kind_set
  kind_rm := plainNetcfg.kind_rm
  split := plainNetcfg.split
  cidrFromStr := plainNetcfg.cidrFromStr
  cidrToStr := plainNetcfg.cidrToStr
  jsonify := id

def nodesState (tree : Nodes) : IfaceState Unit where
  settings := fun name ↦ if name ∈ settingNames then tree (eth0Path ++ "/" ++ name) else none
  servers := fun sub ↦ if sub = eth0Path then tree (sub ++ "/dns-nameservers") else none
  rest := ()

theorem nodes_edit : nodesNetcfg.edit = nodesEdit := rfl

theorem nodesEdit_set (tree : Nodes) {path value : String} (hpath : ' ' ∉ path.toList) :
    nodesEdit tree ("set " ++ path ++ " " ++ value) =
      Function.update tree path
        (some (String.ofList (value.toList.filter (· ≠ '\'')))) := by
  have hlist : ("set " ++ path ++ " " ++ value).toList =
      "set ".toList ++ (path.toList ++ ' ' :: value.toList) := by
    simp only [String.toList_append, List.append_assoc]
    rfl
  have hdrop : ("set ".toList ++ (path.toList ++ ' ' :: value.toList)).drop 4 =
      path.toList ++ ' ' :: value.toList := rfl
  -- the path ends at the first blank
  have htake : (path.toList ++ ' ' :: value.toList).takeWhile (· ≠ ' ') = path.toList := by
    rw [List.takeWhile_append_of_pos]
    · simp
    · intro c hc
      exact decide_eq_true fun h ↦ hpath (h ▸ hc)
  have hvalue : ("set ".toList ++ (path.toList ++ ' ' :: value.toList)).drop
      (path.toList.length + 5) = value.toList := by
    rw [show path.toList.length + 5 = 4 + (path.toList.length + 1) by omega, ← List.drop_drop,
      hdrop, List.drop_append]
    simp
  unfold nodesEdit
  rw [hlist, if_pos (List.prefix_append _ _)]
  dsimp only
  rw [hdrop, htake, hvalue, String.ofList_toList]

theorem nodesEdit_rm (tree : Nodes) (path : String) :
    nodesEdit tree ("rm " ++ path) = Function.update tree path none := by
  have hlist : ("rm " ++ path).toList = "rm ".toList ++ path.toList := String.toList_append
  have hset : ¬ "set ".toList <+: "rm ".toList ++ path.toList := by
    rw [show "set ".toList = 's' :: "et ".toList from rfl,
      show "rm ".toList = 'r' :: "m ".toList from rfl, List.cons_append, List.cons_prefix_cons]
    exact fun h ↦ absurd h.1 (by decide)
  unfold nodesEdit
  rw [hlist, if_neg hset, if_pos (List.prefix_append _ _)]
  show Function.update tree (String.ofList path.toList) none = _
  rw [String.ofList_toList]

theorem getCmdOut_node (tree : Nodes) (cmd : String) {path : String} (h : '=' ∉ path.toList) :
    getCmdOut [cmd, nodeLine tree path, "augtool> "] true "" =
      some ((tree path).getD "") := by
  unfold nodeLine getCmdOut
  rw [if_neg (by simp)]
  cases tree path with
  | none =>
    simp [h]
  | some value =>
    simp [outputValue_value h]

/-- The path of a setting is one word, and no `=` is in it. -/
theorem eth0Path_setting_chars {name : String} (h : name ∈ settingNames) :
    '=' ∉ (eth0Path ++ "/" ++ name).toList ∧ ' ' ∉ (eth0Path ++ "/" ++ name).toList := by
  have hname : ∀ name ∈ settingNames,
      '=' ∉ ("/" ++ name).toList ∧ ' ' ∉ ("/" ++ name).toList := by
    decide
  have ⟨hequals, hblank⟩ := hname name h
  rw [String.append_assoc, String.toList_append, List.mem_append, List.mem_append, not_or, not_or]
  exact ⟨⟨eth0Path_chars.1, hequals⟩, eth0Path_chars.2.1, hblank⟩

theorem eth0Path_servers {name : String} (h : name ∈ settingNames) :
    eth0Path ++ "/" ++ name ≠ eth0Path ++ "/dns-nameservers" := by
  revert h name
  decide

theorem nodesState_update_setting (tree : Nodes) {name : String} (hname : name ∈ settingNames)
    (value : Option String) :
    nodesState (Function.update tree (eth0Path ++ "/" ++ name) value) =
      { nodesState tree with
        settings := Function.update (nodesState tree).settings name value } := by
  have hsettings : (nodesState (Function.update tree (eth0Path ++ "/" ++ name) value)).settings =
      Function.update (nodesState tree).settings name value := by
    funext name'
    simp only [nodesState, Function.update_apply, setting_path_inj]
    by_cases heq : name' = name
    · simp [heq, hname]
    · simp [heq]
  have hservers : (nodesState (Function.update tree (eth0Path ++ "/" ++ name) value)).servers =
      (nodesState tree).servers := by
    funext sub
    simp only [nodesState]
    by_cases hsub : sub = eth0Path
    · rw [hsub, Function.update_of_ne (eth0Path_servers hname).symm]
    · rw [if_neg hsub, if_neg hsub]
  exact IfaceState.ext hsettings hservers rfl

theorem nodesState_update_servers (tree : Nodes) (value : Option String) :
    nodesState (Function.update tree (eth0Path ++ "/dns-nameservers") value) =
      { nodesState tree with
        servers := Function.update (nodesState tree).servers eth0Path value } := by
  have hsettings : (nodesState (Function.update tree (eth0Path ++ "/dns-nameservers")
      value)).settings = (nodesState tree).settings := by
    funext name
    simp only [nodesState]
    by_cases hname : name ∈ settingNames
    · rw [if_pos hname, if_pos hname, Function.update_of_ne (eth0Path_servers hname)]
    · rw [if_neg hname, if_neg hname]
  have hservers : (nodesState (Function.update tree (eth0Path ++ "/dns-nameservers")
      value)).servers = Function.update (nodesState tree).servers eth0Path value := by
    funext sub
    by_cases hsub : sub = eth0Path
    · simp [nodesState, hsub]
    · simp [nodesState, hsub]
  exact IfaceState.ext hsettings hservers rfl

theorem nodesOutput_get (tree : Nodes) (path : String) :
    nodesOutput tree ("get " ++ path) = ["get " ++ path, nodeLine tree path, "augtool> "] := by
  have hlist : ("get " ++ path).toList = "get ".toList ++ path.toList := String.toList_append
  -- a command that reads a node is none of the commands that search
  have hne (whole : String) (h : whole.toList.head? = some 'm') : "get " ++ path ≠ whole := by
    rintro rfl
    rw [hlist] at h
    exact absurd h (by simp)
  have hinterfaces : matchInterfaces.toList.head? = some 'm' := by
    rw [matchInterfaces, String.toList_ofList]
    rfl
  have heth0 : "match /files/etc/network/interfaces/iface[*] eth0".toList.head? = some 'm' := by
    rw [String.toList_ofList]
    rfl
  have hdns : "match /files/etc/network/interfaces/iface[*]/dns-nameservers".toList.head? =
      some 'm' := by
    rw [String.toList_ofList]
    rfl
  unfold nodesOutput
  rw [if_neg (hne _ hinterfaces), if_neg (hne _ heth0), if_neg (hne _ hdns), hlist,
    if_pos (List.prefix_append _ _)]
  show ["get " ++ path, nodeLine tree (String.ofList path.toList), "augtool> "] = _
  rw [String.ofList_toList]

theorem nodesOutput_dns (tree : Nodes) :
    nodesOutput tree "match /files/etc/network/interfaces/iface[*]/dns-nameservers" =
      ["match /files/etc/network/interfaces/iface[*]/dns-nameservers",
        nodeLine tree (eth0Path ++ "/dns-nameservers"), "augtool> "] := by
  have hinterfaces : "match /files/etc/network/interfaces/iface[*]/dns-nameservers" ≠
      matchInterfaces := by
    decide
  unfold nodesOutput
  rw [if_neg hinterfaces, if_neg (by decide), if_pos rfl]
  rfl

theorem nodes_cmdOut {tree : Nodes} {cmd sep text : String} {keyValue : Bool}
    (h : getCmdOut (nodesOutput tree cmd) keyValue sep = some text) :
    cmdOut nodesNetcfg tree cmd keyValue sep = .ok text :=
  congrArg (orThrow · Thrown.outOfRange) h

/-- What an unknown interface is answered. -/
theorem nodesOutput_match (tree : Nodes) {iface : String} (h : iface ≠ "eth0") :
    nodesOutput tree ("match /files/etc/network/interfaces/iface[*] " ++ iface) =
      ["match /files/etc/network/interfaces/iface[*] " ++ iface, "augtool> "] := by
  -- the name behind the blank tells the commands apart
  have hne (whole tail : String) (hwhole : matchInterfaces ++ tail = whole)
      (htail : " " ++ iface ≠ tail) :
      "match /files/etc/network/interfaces/iface[*] " ++ iface ≠ whole := by
    rintro rfl
    have hsplit : "match /files/etc/network/interfaces/iface[*] " = matchInterfaces ++ " " := by
      decide
    rw [hsplit, String.append_assoc] at hwhole
    have hlist := congrArg String.toList hwhole
    rw [String.toList_append, String.toList_append] at hlist
    exact htail (String.toList_injective (List.append_cancel_left hlist).symm)
  have hblank (tail : String) (htail : tail.toList.head? ≠ some ' ') : " " ++ iface ≠ tail := by
    rintro rfl
    exact htail (by rw [String.toList_append]; rfl)
  have heth0 : " " ++ iface ≠ " eth0" := by
    intro heq
    have hlist := congrArg String.toList heq
    rw [String.toList_append, show " eth0".toList = " ".toList ++ "eth0".toList from rfl] at hlist
    exact h (String.toList_injective (List.append_cancel_left hlist))
  have hget : ¬ "get ".toList <+:
      ("match /files/etc/network/interfaces/iface[*] " ++ iface).toList := by
    rw [String.toList_append, show "get ".toList = 'g' :: "et ".toList from rfl,
      show "match /files/etc/network/interfaces/iface[*] ".toList =
        'm' :: "atch /files/etc/network/interfaces/iface[*] ".toList from rfl,
      List.cons_append, List.cons_prefix_cons]
    exact fun h ↦ absurd h.1 (by decide)
  unfold nodesOutput
  rw [if_neg (hne _ "" (by decide) (hblank _ (by decide))),
    if_neg (hne _ " eth0" (by decide) heth0),
    if_neg (hne _ "/dns-nameservers" (by decide) (hblank _ (by decide))), if_neg hget]
  rfl

/-- Where no quote is allowed, none is taken away. -/
theorem filter_quote {chars : List Char} {p : Char → Prop} (h : ∀ c ∈ chars, p c)
    (hp : ¬ p '\'') : chars.filter (· ≠ '\'') = chars := by
  apply List.filter_eq_self.mpr
  intro c hc
  apply decide_eq_true
  rintro rfl
  exact hp (h _ hc)

theorem nodes_get (tree : Nodes) {name : String} (hname : name ∈ settingNames) :
    augGet nodesNetcfg tree eth0Path name = .ok (((nodesState tree).settings name).getD "") := by
  have hpath : '=' ∉ (eth0Path ++ "/" ++ name).toList := (eth0Path_setting_chars hname).1
  have hcmd : "get " ++ eth0Path ++ "/" ++ name = "get " ++ (eth0Path ++ "/" ++ name) := by
    simp only [String.append_assoc]
  have hsetting : (nodesState tree).settings name = tree (eth0Path ++ "/" ++ name) :=
    if_pos hname
  rw [hsetting]
  apply nodes_cmdOut
  rw [hcmd, nodesOutput_get, getCmdOut_node tree _ hpath]

theorem nodes_set (tree : Nodes) {name value : String} (hname : name ∈ settingNames)
    (hvalue : Word value) :
    nodesState (nodesNetcfg.edit tree ("set " ++ eth0Path ++ "/" ++ name ++ " " ++ value)) =
      { nodesState tree with
        settings := Function.update (nodesState tree).settings name (some value) } := by
  have hpath : ' ' ∉ (eth0Path ++ "/" ++ name).toList := (eth0Path_setting_chars hname).2
  have hcmd : "set " ++ eth0Path ++ "/" ++ name ++ " " ++ value =
      "set " ++ (eth0Path ++ "/" ++ name) ++ " " ++ value := by
    simp only [String.append_assoc]
  rw [hcmd, nodes_edit, nodesEdit_set tree hpath, filter_quote hvalue.2 (by decide),
    String.ofList_toList, nodesState_update_setting tree hname]

theorem nodes_setServers (tree : Nodes) {list : String} (hlist : Words list) :
    nodesState (nodesNetcfg.edit tree
        ("set " ++ eth0Path ++ "/dns-nameservers '" ++ list ++ "'")) =
      { nodesState tree with
        servers := Function.update (nodesState tree).servers eth0Path (some list) } := by
  have hcmd : "set " ++ eth0Path ++ "/dns-nameservers '" ++ list ++ "'" =
      "set " ++ (eth0Path ++ "/dns-nameservers") ++ " " ++ ("'" ++ list ++ "'") := by
    rw [show "/dns-nameservers '" = "/dns-nameservers" ++ " " ++ "'" by decide]
    simp only [String.append_assoc]
  have hquotes : ("'" ++ list ++ "'").toList.filter (· ≠ '\'') = list.toList := by
    rw [String.toList_append, String.toList_append, List.filter_append, List.filter_append,
      filter_quote hlist (by decide)]
    simp
  have hpath : ' ' ∉ (eth0Path ++ "/dns-nameservers").toList := by
    rw [String.toList_append, List.mem_append, not_or]
    exact ⟨eth0Path_chars.2.1, by decide⟩
  rw [hcmd, nodes_edit, nodesEdit_set tree hpath, hquotes, String.ofList_toList,
    nodesState_update_servers]

/-- Every node that is read is part of the state of the interface. -/
theorem nodes_read {tree tree' : Nodes} (h : nodesState tree = nodesState tree') :
    ∀ cmd ∈ readCommands eth0Path, nodesOutput tree cmd = nodesOutput tree' cmd := by
  intro cmd hcmd
  have hsetting (name : String) (hname : name ∈ settingNames) :
      nodeLine tree (eth0Path ++ "/" ++ name) = nodeLine tree' (eth0Path ++ "/" ++ name) := by
    have hvalue := congrFun (congrArg IfaceState.settings h) name
    simp only [nodesState, if_pos hname] at hvalue
    rw [nodeLine, nodeLine, hvalue]
  have hservers : nodeLine tree (eth0Path ++ "/dns-nameservers") =
      nodeLine tree' (eth0Path ++ "/dns-nameservers") := by
    have hvalue := congrFun (congrArg IfaceState.servers h) eth0Path
    simp only [nodesState, if_true] at hvalue
    rw [nodeLine, nodeLine, hvalue]
  -- all but the two searches read one node
  have hget (name : String) (hname : name ∈ settingNames) :
      nodesOutput tree ("get " ++ (eth0Path ++ "/" ++ name)) =
        nodesOutput tree' ("get " ++ (eth0Path ++ "/" ++ name)) := by
    rw [nodesOutput_get, nodesOutput_get, hsetting name hname]
  simp only [readCommands, List.mem_cons, List.not_mem_nil, or_false] at hcmd
  rcases hcmd with rfl | rfl | rfl | rfl | rfl | rfl | rfl
  · rfl
  · rfl
  · exact hget "method" (by decide)
  · exact hget "address" (by decide)
  · exact hget "netmask" (by decide)
  · exact hget "gateway" (by decide)
  · exact (nodesOutput_dns tree).trans (hservers ▸ (nodesOutput_dns tree').symm)

/-- Any other interface has the empty path. -/
theorem nodes_path {tree : Nodes} {iface path : String}
    (hpath : cmdOut nodesNetcfg tree
      ("match /files/etc/network/interfaces/iface[*] " ++ iface) false "" = .ok path)
    (hne : path ≠ eth0Path) : path = "" := by
  by_cases hiface : iface = "eth0"
  · subst hiface
    have hfound : cmdOut nodesNetcfg tree
        ("match /files/etc/network/interfaces/iface[*] " ++ "eth0") false "" = .ok eth0Path := by
      rfl
    exact absurd (Except.ok.inj (hfound.symm.trans hpath)).symm hne
  · unfold cmdOut at hpath
    have houtput : nodesNetcfg.output tree _ = _ := nodesOutput_match tree hiface
    rw [houtput] at hpath
    exact (Except.ok.inj hpath).symm

/-- The nodes of the empty path are not those of `eth0`. -/
theorem nodesState_update_elsewhere (tree : Nodes) {name : String} (hname : name ∈ settingNames)
    (value : Option String) :
    (nodesState (Function.update tree ("/" ++ name) value)).settings =
      (nodesState tree).settings := by
  funext name'
  simp only [nodesState]
  by_cases hname' : name' ∈ settingNames
  · have hne : ∀ name ∈ settingNames, ∀ name' ∈ settingNames,
        eth0Path ++ "/" ++ name' ≠ "/" ++ name := by decide
    rw [Function.update_of_ne (hne name hname name' hname')]
  · rw [if_neg hname', if_neg hname']

theorem nodesNetcfg_laws : InterfaceLaws nodesNetcfg eth0Path nodesState fun _ ↦ [eth0Path] where
  address_line := eth0Path_chars.2.2
  get tree _ hname := nodes_get tree hname
  set tree _ hname _ hvalue := nodes_set tree hname hvalue
  rm tree name hname := by
    have hcmd : "rm " ++ eth0Path ++ "/" ++ name = "rm " ++ (eth0Path ++ "/" ++ name) := by
      simp only [String.append_assoc]
    rw [hcmd, nodes_edit, nodesEdit_rm, nodesState_update_setting tree hname]
  targets tree := by
    show (nodesOutput tree matchInterfaces).filterMap dnsIface = _
    unfold nodesOutput
    rw [if_pos rfl]
    decide
  interface_line _ sub hsub := by
    obtain rfl := List.mem_singleton.mp hsub
    exact eth0Path_chars.2.2
  setServers tree sub hsub list _ hlist := by
    obtain rfl := List.mem_singleton.mp hsub
    exact nodes_setServers tree hlist
  rmServers tree sub hsub := by
    obtain rfl := List.mem_singleton.mp hsub
    rw [String.append_assoc, nodes_edit, nodesEdit_rm, nodesState_update_servers]
  read _ _ h := nodes_read h
  save tree tree' files h := h
  save_settings _ _ := rfl
  other tree iface path hpath hne := by
    obtain rfl := nodes_path hpath hne
    refine ⟨by decide, fun tree name hname ↦ ⟨fun value hvalue ↦ ?_, ?_⟩⟩
    · have hcmd : "set " ++ "" ++ "/" ++ name ++ " " ++ value =
          "set " ++ ("/" ++ name) ++ " " ++ value := by
        simp only [String.append_assoc, String.empty_append]
      have hblank : ∀ name ∈ settingNames, ' ' ∉ ("/" ++ name).toList := by decide
      rw [hcmd, nodes_edit, nodesEdit_set tree (hblank name hname)]
      exact nodesState_update_elsewhere tree hname _
    · have hcmd : "rm " ++ "" ++ "/" ++ name = "rm " ++ ("/" ++ name) := by
        simp only [String.append_assoc, String.empty_append]
      rw [hcmd, nodes_edit, nodesEdit_rm]
      exact nodesState_update_elsewhere tree hname _
  cidr text cidr h := by
    have htext : text = "10.0.0.5" := by
      by_contra hne
      have hnone : nodesNetcfg.cidrFromStr text = none := if_neg hne
      rw [hnone] at h
      cases h
    rw [htext]
    decide

/-- The process on an interface with an address. -/
def eth0With (method : String) : Augtool Nodes Nodes :=
  Augtool.start nodesNetcfg.toAugeas fun path ↦
    [(eth0Path ++ "/method", method), (eth0Path ++ "/address", "10.0.0.5"),
      (eth0Path ++ "/dns-nameservers", "10.0.0.5")].lookup path

theorem eth0With_settings (method : String) :
    (nodesState (eth0With method).tree).settings "method" = some method ∧
      (nodesState (eth0With method).tree).settings "address" = some "10.0.0.5" :=
  ⟨rfl, rfl⟩

theorem eth0With_servers (method : String) :
    (nodesState (eth0With method).tree).servers eth0Path = some "10.0.0.5" := rfl

/-- A member makes this step of the interface. -/
abbrev nodesStep : IfaceState Unit → String × Json → IfaceState Unit :=
  IfaceState.setMember nodesNetcfg fun _ ↦ [eth0Path]

theorem nodes_checkFiles (tree : Nodes) : checkFiles nodesNetcfg tree = .ok () := rfl

theorem nodes_netcfgChange (tree : Nodes) (members : List (String × Json)) :
    netcfgChange nodesNetcfg tree (eth0Request members) =
      .ok ⟨eth0Path, (nodesState tree).method, members⟩ := by
  have hpath : cmdOut nodesNetcfg tree
      ("match /files/etc/network/interfaces/iface[*] " ++ "eth0") false "" = .ok eth0Path := rfl
  have hmethod : augGet nodesNetcfg tree eth0Path "method" = .ok (nodesState tree).method :=
    nodesNetcfg_laws.get tree "method" (by decide)
  simp only [netcfgChange, bind_eq_ok, pure_eq_ok, require_eq_ok, mapError_eq_ok, orThrow_eq_ok,
    exists_const]
  exact ⟨rfl, (), nodes_checkFiles tree, show "eth0" ≠ "" by decide,
    show rexIface "eth0" = true by decide, eth0Path, hpath, by decide, _, hmethod, _, rfl, _, rfl,
    rfl⟩

theorem nodes_netcfgAnswer {tree : Nodes}
    (h : (nodesState tree).servers eth0Path = some "10.0.0.5") :
    ∃ a, netcfgAnswer nodesNetcfg tree "eth0" eth0Path = .ok a := by
  have hvalue : tree (eth0Path ++ "/dns-nameservers") = some "10.0.0.5" := by
    simpa only [nodesState, if_true] using h
  have hdns : cmdOut nodesNetcfg tree
      "match /files/etc/network/interfaces/iface[*]/dns-nameservers" true " " =
        .ok "10.0.0.5" := by
    have hpath : '=' ∉ (eth0Path ++ "/dns-nameservers").toList := by
      rw [String.toList_append, List.mem_append, not_or]
      exact ⟨eth0Path_chars.1, by decide⟩
    apply nodes_cmdOut
    rw [nodesOutput_dns, nodeLine, hvalue]
    exact getCmdOut_value _ _ _ hpath
  have hget := nodesNetcfg_laws.get tree
  simp only [netcfgAnswer, bind_eq_ok, pure_eq_ok, require_eq_ok, exists_const]
  exact ⟨_, _, hget "method" (by decide), _, hget "address" (by decide), _,
    hget "netmask" (by decide), _, hget "gateway" (by decide), _, hdns, by decide +kernel, rfl⟩

/-- Members that go through are answered without an error. -/
theorem nodes_of_members {s s' : Augtool Nodes Nodes} {members : List (String × Json)}
    {now : String}
    (hmembers : run (members.foldlM (setMember nodesNetcfg eth0Path) (nodesState s.tree).method) s =
      (.ok now, s'))
    (hservers : (nodesState s'.tree).servers eth0Path = some "10.0.0.5") :
    GoesThrough (putNetcfg nodesNetcfg (eth0Request members)) s ∧
      nodesState (netcfgStep nodesNetcfg s (eth0Request members)).1.tree = nodesState s'.tree := by
  have hsaved : (Augtool.save nodesNetcfg.toAugeas s').tree = s'.tree := Augtool.save_tree
  obtain ⟨a, ha⟩ := nodes_netcfgAnswer hservers
  have hrun : run (putNetcfg nodesNetcfg (eth0Request members)) s =
      (.ok a, Augtool.save nodesNetcfg.toAugeas s') := by
    refine run_putNetcfg_eq_ok.mpr ⟨_, nodes_netcfgChange _ _, now, s', hmembers, ?_⟩
    exact run_commitNetcfg_eq_ok.mpr ⟨rfl, nodes_checkFiles _, by rw [hsaved]; exact ha⟩
  constructor
  · exact ⟨a, _, hrun⟩
  · unfold netcfgStep
    rw [hrun]
    exact congrArg nodesState hsaved

/-- Members that the interface accepts are answered without an error. -/
theorem nodes_goesThrough {s : Augtool Nodes Nodes} {members : List (String × Json)}
    (hwords : MethodWords members)
    (haccepts : Accepts (IfaceState.Ok nodesNetcfg) nodesStep (nodesState s.tree) members)
    (hservers : (members.foldl nodesStep (nodesState s.tree)).servers eth0Path =
      some "10.0.0.5") :
    GoesThrough (putNetcfg nodesNetcfg (eth0Request members)) s ∧
      nodesState (netcfgStep nodesNetcfg s (eth0Request members)).1.tree =
        members.foldl nodesStep (nodesState s.tree) := by
  have hat : At nodesState (nodesState s.tree) s.files s := ⟨rfl, rfl⟩
  obtain ⟨now, s', hmembers⟩ := members_of_accepts nodesNetcfg_laws hat hwords haccepts
  obtain ⟨-, hend, -⟩ := at_of_members nodesNetcfg_laws hat hwords hmembers
  rw [← hend] at hservers ⊢
  exact nodes_of_members hmembers hservers

/-- Members that are answered without an error are accepted by the interface. -/
theorem nodes_accepts {s : Augtool Nodes Nodes} {members : List (String × Json)}
    (hwords : MethodWords members)
    (hthrough : GoesThrough (putNetcfg nodesNetcfg (eth0Request members)) s) :
    Accepts (IfaceState.Ok nodesNetcfg) nodesStep (nodesState s.tree) members := by
  obtain ⟨a, s', hrun⟩ := hthrough
  obtain ⟨c, hc, now, s₁, hmembers, -⟩ := run_putNetcfg_eq_ok.mp hrun
  obtain rfl := Except.ok.inj ((nodes_netcfgChange s.tree members).symm.trans hc)
  exact (at_of_members nodesNetcfg_laws ⟨rfl, rfl⟩ hwords hmembers).1

end FtyRest.Ecpp
