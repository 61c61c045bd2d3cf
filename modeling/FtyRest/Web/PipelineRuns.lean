import FtyRest.Web.Pipeline

/-!
# Requests side by side

What holds of the requests that get behind `ssl_redirect.ecpp`, `auth_verify.ecpp` and
`license.ecpp`, whatever the other requests do in the meantime.
-/

namespace FtyRest.Web

open Checks Dispatch Ecpp

section

variable {τ : Type} (site : Site τ)

/-! ## What the components keep -/

/-- What a component may do to a request and to what is shared. -/
structure Kept (t : Target) (r r' : Request) (s s' : ServerState τ) : Prop where
  http : r'.http = r.http
  gaccessToken : r'.gaccessToken = r.gaccessToken ∨
    t = .findAccessToken ∧ r'.gaccessToken = presentedToken r.http
  user : r'.user = r.user ∨
    t = .authVerify ∧ r.user.profile = .anonymous ∧ r.gaccessToken ≠ "" ∧
      (site.verifyToken s.rest r.gaccessToken).profile ≠ .anonymous ∧
      r'.user = signIn site (site.verifyToken s.rest r.gaccessToken) r.user
  currentLicenseVersion : r'.currentLicenseVersion = r.currentLicenseVersion ∨
    t = .license ∨ t = .licensePost
  accepted : r.accepted ⊆ r'.accepted
  acceptedLicense : s'.acceptedLicense = s.acceptedLicense ∨ s'.acceptedLicense = some [] ∨
    r'.user.profile = .admin ∧
      ∃ a ∈ r'.accepted, ∃ tail, s'.acceptedLicense = some (a.text ++ tail)

/-- The version that was current when `license.ecpp` looked. -/
def Current (s : ServerState τ) (r : Request) : Prop :=
  s.licenseVersion = some r.currentLicenseVersion

/-- The version that was accepted when `license.ecpp` looked. -/
def Accepted (s : ServerState τ) (r : Request) : Prop :=
  ∃ text, s.acceptedLicense = some text ∧ (readWord text).1 ≠ [] ∧
    cText (readWord text).1 = r.currentLicenseVersion

/-- What holds of a request when a component leaves it to the mappings behind. -/
def Established (t : Target) : Assertion (ServerState τ) Request :=
  match t with
  | .sslRedirect => fun _ r ↦ Secured site r.http
  | .findAccessToken => fun _ r ↦ r.gaccessToken = presentedToken r.http
  | .license => fun past r ↦ Once Current past r ∧ Once Accepted past r
  | .notFound => fun _ _ ↦ False
  | _ => fun _ _ ↦ True

/-- A request of which only the reply and `database_ready` have changed. -/
structure Same (r r' : Request) : Prop where
  http : r'.http = r.http
  gaccessToken : r'.gaccessToken = r.gaccessToken
  user : r'.user = r.user
  currentLicenseVersion : r'.currentLicenseVersion = r.currentLicenseVersion
  accepted : r'.accepted = r.accepted

theorem same_refl (r : Request) : Same r r := ⟨rfl, rfl, rfl, rfl, rfl⟩

theorem same_die (r : Request) (reason : HttpDie) : Same r (r.die reason) :=
  ⟨rfl, rfl, rfl, rfl, rfl⟩

variable {site} {t : Target} {r r' : Request} {s s' : ServerState τ}
  {K P : Assertion (ServerState τ) Request}

theorem Same.kept (h : Same r r') (hfile : s'.acceptedLicense = s.acceptedLicense) :
    Kept site t r r' s s' where
  http := h.http
  gaccessToken := .inl h.gaccessToken
  user := .inl h.user
  currentLicenseVersion := .inl h.currentLicenseVersion
  accepted := h.accepted ▸ List.Subset.refl _
  acceptedLicense := .inl hfile

/-- A request that is answered with an error goes nowhere. -/
theorem kept_die (reason : HttpDie) {A B : Prop} :
    Kept site t r (r.die reason) s s ∧ (Next.answered = .onward → A) ∧
      (Next.answered = .declined → B) := by
  refine ⟨(same_die r reason).kept rfl, fun h ↦ ?_, fun h ↦ ?_⟩
  · cases h
  · cases h

/-- A component of one step that touches nothing else. -/
theorem keeps_same {action : Action (ServerState τ) Request}
    (hsame : ∀ s r, Same r (action s r).2.1 ∧
      (action s r).1.acceptedLicense = s.acceptedLicense)
    (hK : ∀ s past r, (action s r).2.2 = .declined →
      K ((action s r).1 :: s :: past) (action s r).2.1) :
    Keeps (Kept site t) K P [action] := by
  refine .single fun s past r s' r' next _ hact ↦ ?_
  have hone := hsame s r
  have hdeclined := hK s past r
  rw [hact] at hone hdeclined
  exact ⟨hone.1.kept hone.2, hdeclined⟩

theorem keeps_serverStatus : Keeps (Kept site t) (fun _ _ ↦ True) P [serverStatus site] := by
  refine keeps_same (fun s r ↦ ?_) fun _ _ _ _ ↦ trivial
  unfold serverStatus
  split
  · exact ⟨same_die r _, rfl⟩
  · exact ⟨⟨rfl, rfl, rfl, rfl, rfl⟩, rfl⟩

theorem keeps_sslRedirect :
    Keeps (Kept site t) (Established site .sslRedirect) P [sslRedirect site] := by
  refine keeps_same (fun s r ↦ ?_) fun s past r hdeclined ↦ ?_
  · unfold sslRedirect
    split
    · exact ⟨same_refl r, rfl⟩
    · exact ⟨⟨rfl, rfl, rfl, rfl, rfl⟩, rfl⟩
  · unfold sslRedirect at hdeclined ⊢
    split at hdeclined
    · rename_i hsecured
      rw [if_pos hsecured]
      exact hsecured
    · cases hdeclined

theorem keeps_securityHeaders (args : List (String × String)) :
    Keeps (Kept site t) (fun _ _ ↦ True) P [securityHeaders args] :=
  keeps_same (fun _ _ ↦ ⟨⟨rfl, rfl, rfl, rfl, rfl⟩, rfl⟩) fun _ _ _ _ ↦ trivial

theorem keeps_securityRemoveheaders (args : List (String × String)) :
    Keeps (Kept site t) (fun _ _ ↦ True) P [securityRemoveheaders args] :=
  keeps_same (fun _ _ ↦ ⟨⟨rfl, rfl, rfl, rfl, rfl⟩, rfl⟩) fun _ _ _ _ ↦ trivial

theorem keeps_json : Keeps (Kept site t) (fun _ _ ↦ True) P [json] := by
  refine keeps_same (fun s r ↦ ?_) fun _ _ _ _ ↦ trivial
  unfold json
  split
  · exact ⟨same_refl r, rfl⟩
  · exact ⟨⟨rfl, rfl, rfl, rfl, rfl⟩, rfl⟩

theorem keeps_notFound : Keeps (Kept site t) (Established site .notFound) P [notFound] := by
  refine keeps_same (fun s r ↦ ⟨same_die r _, rfl⟩) fun s past r hdeclined ↦ ?_
  cases hdeclined

theorem keeps_otherPage (e : Entry) :
    Keeps (Kept site t) (fun _ _ ↦ True) P [otherPage site e] :=
  keeps_same (fun _ r ↦ ⟨same_refl r, rfl⟩) fun _ _ _ _ ↦ trivial

theorem keeps_findAccessToken :
    Keeps (Kept site .findAccessToken) (Established site .findAccessToken) P
      [findAccessToken] := by
  refine .single fun s past r s' r' next _ hact ↦ ?_
  obtain ⟨rfl, hrest⟩ := Prod.mk.inj hact
  obtain ⟨rfl, -⟩ := Prod.mk.inj hrest
  refine ⟨⟨rfl, .inr ⟨rfl, rfl⟩, .inl rfl, .inl rfl, List.Subset.refl _, .inl rfl⟩, fun _ ↦ ?_⟩
  exact rfl

/-- What `auth_verify.ecpp` does. -/
theorem authVerify_cases (site : Site τ) (s : ServerState τ) (r : Request) :
    (∃ reason, authVerify site s r = (s, r.die reason, .answered)) ∨
      (r.user.profile ≠ .anonymous ∨ r.gaccessToken = "") ∧
        authVerify site s r = (s, r, .declined) ∨
      (r.user.profile = .anonymous ∧ r.gaccessToken ≠ "" ∧
        (site.verifyToken s.rest r.gaccessToken).profile ≠ .anonymous ∧
        authVerify site s r =
          (s, { r with user := signIn site (site.verifyToken s.rest r.gaccessToken) r.user },
            .declined)) := by
  unfold authVerify
  by_cases hanonymous : r.user.profile = .anonymous
  · rw [if_pos hanonymous]
    split
    · rename_i reason _
      exact .inl ⟨reason, rfl⟩
    · by_cases hempty : r.gaccessToken = ""
      · rw [if_pos hempty]
        exact .inr (.inl ⟨.inr hempty, rfl⟩)
      · rw [if_neg hempty]
        by_cases hfound : (site.verifyToken s.rest r.gaccessToken).profile = .anonymous
        · exact .inl ⟨_, if_pos hfound⟩
        · exact .inr (.inr ⟨hanonymous, hempty, hfound, if_neg hfound⟩)
  · rw [if_neg hanonymous]
    exact .inr (.inl ⟨.inl hanonymous, rfl⟩)

theorem keeps_authVerify :
    Keeps (Kept site .authVerify) (fun _ _ ↦ True) P [authVerify site] := by
  refine .single fun s past r s' r' next _ hact ↦ ⟨?_, fun _ ↦ trivial⟩
  rcases authVerify_cases site s r with
    ⟨reason, hdied⟩ | ⟨-, hsame⟩ | ⟨hanonymous, htoken, hfound, hsigned⟩
  · obtain ⟨rfl, hrest⟩ := Prod.mk.inj (hdied.symm.trans hact)
    obtain ⟨rfl, rfl⟩ := Prod.mk.inj hrest
    exact (same_die r reason).kept rfl
  · obtain ⟨rfl, hrest⟩ := Prod.mk.inj (hsame.symm.trans hact)
    obtain ⟨rfl, rfl⟩ := Prod.mk.inj hrest
    exact (same_refl r).kept rfl
  · obtain ⟨rfl, hrest⟩ := Prod.mk.inj (hsigned.symm.trans hact)
    obtain ⟨rfl, rfl⟩ := Prod.mk.inj hrest
    exact ⟨rfl, .inl rfl, .inr ⟨rfl, hanonymous, htoken, hfound, rfl⟩, .inl rfl,
      List.Subset.refl _, .inl rfl⟩

theorem licenseVersion_of_ok {version : List Char}
    (h : currentLicenseVersion site s = .ok version) : s.licenseVersion = some version := by
  simp only [currentLicenseVersion, bind_eq_ok, orThrow_eq_ok, pure_eq_ok] at h
  obtain ⟨-, -, v, hv, -, -, rfl⟩ := h
  exact hv

theorem accepted_of_checkLicense
    (h : checkLicense r.currentLicenseVersion s.acceptedLicense = .ok ()) :
    Accepted s r := by
  simp only [checkLicense, bind_eq_ok, require_eq_ok] at h
  obtain ⟨-, hne, hversion⟩ := h
  cases htext : s.acceptedLicense with
  | none =>
    rw [htext] at hne
    exact absurd rfl hne
  | some text =>
    rw [htext] at hne hversion
    exact ⟨text, htext, hne, hversion⟩

theorem keeps_license :
    Keeps (Kept site .license) (Established site .license) P (license site) := by
  refine .cons P (Once Current) _ _ (lasting_once Current) ?_ (.single ?_)
  · -- the version is asked for first: what is known behind it is that it was current once
    intro s past r s' r' next _ hact
    split at hact
    · rename_i reason _
      obtain ⟨rfl, hrest⟩ := Prod.mk.inj hact
      obtain ⟨rfl, rfl⟩ := Prod.mk.inj hrest
      exact kept_die reason
    · rename_i version hversion
      obtain ⟨rfl, hrest⟩ := Prod.mk.inj hact
      obtain ⟨rfl, rfl⟩ := Prod.mk.inj hrest
      refine ⟨⟨rfl, .inl rfl, .inl rfl, .inr (.inl rfl), List.Subset.refl _, .inl rfl⟩,
        fun _ ↦ ?_, fun h ↦ by cases h⟩
      exact ⟨s, List.mem_cons_self, licenseVersion_of_ok hversion⟩
  · -- the check of the file reads the state of its own turn
    intro s past r s' r' next hcurrent hact
    split at hact
    · rename_i reason _
      obtain ⟨rfl, hrest⟩ := Prod.mk.inj hact
      obtain ⟨rfl, rfl⟩ := Prod.mk.inj hrest
      refine ⟨(same_die r reason).kept rfl, fun h ↦ ?_⟩
      cases h
    · rename_i hcheck
      obtain ⟨rfl, hrest⟩ := Prod.mk.inj hact
      obtain ⟨rfl, rfl⟩ := Prod.mk.inj hrest
      refine ⟨(same_refl r).kept rfl, fun _ ↦ ⟨lasting_once Current s _ r hcurrent, ?_⟩⟩
      exact ⟨s, List.mem_cons_self, accepted_of_checkLicense hcheck⟩

theorem keeps_licensePost :
    Keeps (Kept site .licensePost) (fun _ _ ↦ True) P (licensePost site) := by
  have hadmin : Lasting fun (_ : List (ServerState τ)) (r : Request) ↦ r.user.profile = .admin :=
    lasting_const _
  refine .cons P _ _ _ hadmin ?_ (.cons _ _ _ _ hadmin ?_
    (.cons _ (fun _ _ ↦ True) _ _ (lasting_const _) ?_ (.single ?_)))
  · -- who is permitted is an administrator, which no later action changes
    intro s past r s' r' next _ hact
    split at hact
    · rename_i _ _ reason _
      obtain ⟨rfl, hrest⟩ := Prod.mk.inj hact
      obtain ⟨rfl, rfl⟩ := Prod.mk.inj hrest
      exact kept_die reason
    · rename_i reason _ _
      obtain ⟨rfl, hrest⟩ := Prod.mk.inj hact
      obtain ⟨rfl, rfl⟩ := Prod.mk.inj hrest
      exact kept_die reason
    · rename_i version hpermitted _
      obtain ⟨rfl, hrest⟩ := Prod.mk.inj hact
      obtain ⟨rfl, rfl⟩ := Prod.mk.inj hrest
      refine ⟨⟨rfl, .inl rfl, .inl rfl, .inr (.inr rfl), List.Subset.refl _, .inl rfl⟩,
        fun _ ↦ ?_, fun _ ↦ trivial⟩
      exact List.mem_singleton.mp (site.listed _ _ _ hpermitted)
  · -- the file is emptied when it is opened
    intro s past r s' r' next hprofile hact
    split at hact
    · obtain ⟨rfl, hrest⟩ := Prod.mk.inj hact
      obtain ⟨rfl, rfl⟩ := Prod.mk.inj hrest
      exact ⟨⟨rfl, .inl rfl, .inl rfl, .inl rfl, List.Subset.refl _, .inr (.inl rfl)⟩,
        fun _ ↦ hprofile, fun _ ↦ trivial⟩
    · obtain ⟨rfl, hrest⟩ := Prod.mk.inj hact
      obtain ⟨rfl, rfl⟩ := Prod.mk.inj hrest
      exact kept_die _
  · -- and written in the name of this user, who is still an administrator
    intro s past r s' r' next hprofile hact
    obtain ⟨rfl, hrest⟩ := Prod.mk.inj hact
    obtain ⟨rfl, rfl⟩ := Prod.mk.inj hrest
    refine ⟨⟨rfl, .inl rfl, .inl rfl, .inl rfl, List.subset_cons_self _ _,
      .inr (.inr ⟨hprofile, _, List.mem_cons_self, _, rfl⟩)⟩, fun _ ↦ trivial, fun _ ↦ trivial⟩
  · intro s past r s' r' next _ hact
    split at hact
    · rename_i rest reason _
      obtain ⟨rfl, hrest⟩ := Prod.mk.inj hact
      obtain ⟨rfl, rfl⟩ := Prod.mk.inj hrest
      exact ⟨(same_die r reason).kept rfl, fun _ ↦ trivial⟩
    · rename_i rest _
      obtain ⟨rfl, hrest⟩ := Prod.mk.inj hact
      obtain ⟨rfl, rfl⟩ := Prod.mk.inj hrest
      have hsame : Same r { r with databaseReady := true } := ⟨rfl, rfl, rfl, rfl, rfl⟩
      exact ⟨hsame.kept rfl, fun _ ↦ trivial⟩

variable (site) in
/-- Each mapping keeps to its component. -/
theorem entries_keep (es : List Entry) :
    AllKeep (fun m ↦ Kept site m.target.target) (fun m ↦ Established site m.target.target)
      (es.map (mapping site)) := by
  intro m hm
  obtain ⟨e, -, rfl⟩ := List.mem_map.mp hm
  show Keeps (Kept site e.target) (Established site e.target) _ (actions site e)
  unfold actions
  split <;> rename_i ht <;> rw [ht]
  · exact keeps_serverStatus
  · exact keeps_sslRedirect
  · exact keeps_securityHeaders e.args
  · exact keeps_securityRemoveheaders e.args
  · exact keeps_json
  · exact keeps_findAccessToken
  · exact keeps_authVerify
  · exact keeps_licensePost
  · exact keeps_license
  · exact keeps_notFound
  · exact keeps_otherPage e

/-! ## Behind a component -/

/-- The request has got behind the first mapping of a component. -/
def StandsBehind (t : Target) (job : Job (ServerState τ) Request Entry) : Prop :=
  job.chain.map (·.target) <:+ behind t

instance (t : Target) (job : Job (ServerState τ) Request Entry) : Decidable (StandsBehind t job) :=
  inferInstanceAs (Decidable (_ <:+ _))

variable (site) in
theorem serve_sound (s : ServerState τ) (events : List (Event HttpRequest (Change τ))) :
    ∀ job ∈ (serve site s events).jobs,
      Job.Sound (fun m ↦ Kept site m.target.target) (fun m ↦ Established site m.target.target)
        (entries.map (mapping site)) (serve site s events).history job :=
  Server.run_sound (entries_keep site entries) s events

/-- A chain is told by its entries. -/
theorem chain_suffix {job : Job (ServerState τ) Request Entry} {es : List Entry}
    (hchain : job.chain <:+ entries.map (mapping site))
    (hsuffix : job.chain.map (·.target) <:+ es) : job.chain <:+ es.map (mapping site) := by
  obtain ⟨front, hfront⟩ := hchain
  obtain ⟨l, l', -, -, hl'⟩ := List.map_eq_append_iff.mp hfront.symm
  have htargets : job.chain.map (·.target) = l' := by
    rw [← hl', List.map_map]
    exact List.map_id l'
  rw [htargets] at hsuffix
  rw [← hl']
  exact hsuffix.map (mapping site)

variable (site) in
theorem mappings_eq {t : Target} {e : Entry} (he : entries.find? (·.target == t) = some e) :
    entries.map (mapping site) =
      (inFront t).map (mapping site) ++ mapping site e :: (behind t).map (mapping site) := by
  conv_lhs => rw [entries_eq he]
  rw [List.map_append, List.map_cons]

variable (site) in
/-- What a component establishes of all requests of a kind holds of those behind it. -/
theorem serve_behind {t : Target} {e : Entry} {C : HttpRequest → Prop}
    (he : entries.find? (·.target == t) = some e)
    (hcovers : ∀ http, C http → e.covers http.url http.method = true)
    (hlasting : Lasting (Established site t))
    (hcarry : ∀ e' ∈ behind t, ∀ r r' s s' past, Kept site e'.target r r' s s' →
      Established site t (s :: past) r → Established site t (s' :: s :: past) r')
    (s : ServerState τ) (events : List (Event HttpRequest (Change τ)))
    (job : Job (ServerState τ) Request Entry) (hjob : job ∈ (serve site s events).jobs)
    (hbehind : StandsBehind t job) (hC : C job.request.http) :
    Established site t (serve site s events).history job.request := by
  have hchain := chain_suffix (serve_sound site s events job hjob).chain hbehind
  have ht : e.target = t := by
    have hfound := List.find?_some he
    exact beq_iff_eq.mp hfound
  have hsplit := mappings_eq site he
  -- the mapping of the component is the gate between those in front of it and those behind
  have hgate : Gate (fun m ↦ Kept site m.target.target)
      (fun m ↦ Established site m.target.target) (fun r ↦ C r.http) (mapping site e)
      ((inFront t).map (mapping site)) ((behind t).map (mapping site)) := by
    refine ⟨?_, ?_, ?_, ?_, ?_⟩
    · rw [← hsplit]
      exact entries_keep site entries
    · exact fun r hr ↦ hcovers r.http hr
    · show Lasting (Established site e.target)
      rwa [ht]
    · intro m _ r r' s s' hkept hr'
      exact (show r'.http = r.http from hkept.http) ▸ hr'
    · intro m hm r r' s s' past hkept hestablished
      obtain ⟨e', he', rfl⟩ := List.mem_map.mp hm
      show Established site e.target (s' :: s :: past) r'
      rw [ht]
      exact hcarry e' he' r r' s s' past hkept (ht ▸ hestablished)
  have hjob' : job ∈ (Server.run ((inFront t).map (mapping site) ++
      mapping site e :: (behind t).map (mapping site)) (arrived site) change s events).jobs := by
    rw [← hsplit]
    exact hjob
  have hrun := Server.run_behind hgate s events job hjob' hchain hC
  rw [← hsplit] at hrun
  exact ht ▸ hrun

/-! ## Who asks -/

variable {job : Job (ServerState τ) Request Entry} {events : List (Event HttpRequest (Change τ))}
  {i : Nat}

theorem serve_secured (hjob : job ∈ (serve site s events).jobs)
    (hbehind : StandsBehind .sslRedirect job) : Secured site job.request.http := by
  refine serve_behind site (C := fun _ ↦ True) find_sslRedirect (fun _ _ ↦ rfl) (lasting_const _)
    ?_ s events job hjob hbehind trivial
  intro e' _ r r' s s' past hkept hsecured
  show Secured site r'.http
  rw [hkept.http]
  exact hsecured

theorem serve_token (hjob : job ∈ (serve site s events).jobs)
    (hbehind : StandsBehind .findAccessToken job) :
    job.request.gaccessToken = presentedToken job.request.http := by
  refine serve_behind site (C := fun _ ↦ True) find_findAccessToken (fun _ _ ↦ rfl)
    (lasting_const _) ?_ s events job hjob hbehind trivial
  intro e' he' r r' s s' past hkept htoken
  show r'.gaccessToken = presentedToken r'.http
  have htoken : r.gaccessToken = presentedToken r.http := htoken
  rw [hkept.http, ← htoken]
  refine hkept.gaccessToken.resolve_right ?_
  rintro ⟨htarget, -⟩
  exact target_behind_findAccessToken e' he' htarget

/-- The next step of the request is that of `auth_verify.ecpp`. -/
def AtAuthVerify (site : Site τ) (job : Job (ServerState τ) Request Entry) : Prop :=
  job.chain.map (·.target) = authVerifyEntry :: behind .authVerify ∧
    job.running = some [authVerify site] ∧ job.answered = false

/-- The token of the request is good, and it belongs to the user. -/
def Good (site : Site τ) (s : ServerState τ) (r : Request) : Prop :=
  (site.verifyToken s.rest (presentedToken r.http)).profile ≠ .anonymous ∧
    r.user = signIn site (site.verifyToken s.rest (presentedToken r.http)) site.userInfo

/-- Nobody is identified in front of `auth_verify.ecpp`. -/
theorem serve_unknown (hjob : job ∈ (serve site s events).jobs)
    (hinFront : job.InFront (mapping site authVerifyEntry)
      ((behind .authVerify).map (mapping site))) : job.request.user = site.userInfo := by
  have hsplit := mappings_eq site find_authVerify
  have hkeep := entries_keep site entries
  unfold serve at hjob
  rw [hsplit] at hjob hkeep
  refine Server.run_inFront (J := fun r ↦ r.user = site.userInfo) hkeep (fun _ ↦ rfl) ?_ s events
    job hjob hinFront
  intro m hm r r' s s' hkept huser
  obtain ⟨e', he', rfl⟩ := List.mem_map.mp hm
  refine (hkept.user.resolve_right ?_).trans huser
  rintro ⟨htarget, -⟩
  exact target_inFront e' he' htarget

/-- A request behind `auth_verify.ecpp` has passed it in a turn of its own, and keeps its user. -/
theorem serve_passed (hjob : (serve site s events).jobs[i]? = some job)
    (hbehind : StandsBehind .authVerify job) :
    ∃ before after job₀ first, events = before ++ .turn i :: after ∧
      (serve site s before).jobs[i]? = some job₀ ∧ AtAuthVerify site job₀ ∧
      job₀.request.user = site.userInfo ∧
      (∃ s', authVerify site (serve site s before).now job₀.request = (s', first, .declined)) ∧
      job.request.http = first.http ∧ job.request.user = first.user := by
  have hsplit := mappings_eq site find_authVerify
  have hkeep := entries_keep site entries
  have hchain := chain_suffix (serve_sound site s events job (List.mem_of_getElem? hjob)).chain
    hbehind
  unfold serve at hjob
  rw [hsplit] at hjob hkeep
  have hback : ∀ m ∈ (behind .authVerify).map (mapping site), ∀ (first r r' : Request) s s',
      Kept site m.target.target r r' s s' → (r.http = first.http ∧ r.user = first.user) →
        r'.http = first.http ∧ r'.user = first.user := by
    rintro m hm first r r' s s' hkept ⟨hhttp, huser⟩
    obtain ⟨e', he', rfl⟩ := List.mem_map.mp hm
    refine ⟨hkept.http.trans hhttp, (hkept.user.resolve_right ?_).trans huser⟩
    rintro ⟨htarget, -⟩
    exact target_behind_authVerify e' he' htarget
  obtain ⟨before, after, job₀, first, hevents, hjob₀, hpasses, hhttp, huser⟩ :=
    Server.run_passed (R := fun first r ↦ r.http = first.http ∧ r.user = first.user) hkeep
      (fun _ ↦ rfl) (fun _ ↦ ⟨rfl, rfl⟩) hback s events hjob hchain
  rw [← hsplit] at hjob₀ hpasses
  have hjob₀ : (serve site s before).jobs[i]? = some job₀ := hjob₀
  obtain ⟨hat, hanswered, action, actions, s', hrunning, hsuffix, hact⟩ := hpasses
  -- the component has one step, which is still to come
  obtain ⟨rfl, rfl⟩ : action = authVerify site ∧ actions = [] := by
    rcases List.suffix_cons_iff.mp hsuffix with hall | hnil
    · exact List.cons_eq_cons.mp hall
    · cases List.suffix_nil.mp hnil
  have hinFront : job₀.InFront (mapping site authVerifyEntry)
      ((behind .authVerify).map (mapping site)) :=
    ⟨hat ▸ List.suffix_refl _, fun _ ↦ .inr hrunning⟩
  refine ⟨before, after, job₀, first, hevents, hjob₀, ⟨?_, hrunning, hanswered⟩,
    serve_unknown (List.mem_of_getElem? hjob₀) hinFront, ⟨s', hact⟩, hhttp, huser⟩
  rw [hat, ← List.map_cons, List.map_map]
  exact List.map_id _

/-- Whatever happens on the server, a request gets behind `auth_verify.ecpp` only over SSL, or
where that is not asked for, and by a step of its own, with a user who is nobody without a token,
and whose token is good when this step is taken otherwise. -/
theorem serve_authorized (site : Site τ) (s : ServerState τ)
    (events : List (Event HttpRequest (Change τ))) {i : Nat}
    {job : Job (ServerState τ) Request Entry} (hjob : (serve site s events).jobs[i]? = some job)
    (hbehind : StandsBehind .authVerify job) :
    Secured site job.request.http ∧
      ∃ before after job₀, events = before ++ .turn i :: after ∧
        (serve site s before).jobs[i]? = some job₀ ∧ AtAuthVerify site job₀ ∧
        ((presentedToken job.request.http = "" ∧ job.request.user = site.userInfo) ∨
          (presentedToken job.request.http ≠ "" ∧
            Good site (serve site s before).now job.request)) := by
  have hmem := List.mem_of_getElem? hjob
  have hbehindToken : StandsBehind .findAccessToken job := hbehind.trans behind_authVerify_suffix
  have hbehindSsl : StandsBehind .sslRedirect job :=
    hbehindToken.trans behind_findAccessToken_suffix
  refine ⟨serve_secured hmem hbehindSsl, ?_⟩
  obtain ⟨before, after, job₀, first, hevents, hjob₀, hat, hunknown, ⟨s', hact⟩, hhttp, huser⟩ :=
    serve_passed hjob hbehind
  refine ⟨before, after, job₀, hevents, hjob₀, hat, ?_⟩
  have htoken₀ : job₀.request.gaccessToken = presentedToken job₀.request.http := by
    apply serve_token (List.mem_of_getElem? hjob₀)
    unfold StandsBehind
    rw [hat.1]
    exact authVerify_behind_findAccessToken
  -- the request went on, so it was not refused: it has no token, or a good one
  rcases authVerify_cases site (serve site s before).now job₀.request with
    ⟨reason, hdied⟩ | ⟨hwho, hsame⟩ | ⟨-, hne, hfound, hsigned⟩
  · cases hdied.symm.trans hact
  · left
    obtain ⟨-, hrest⟩ := Prod.mk.inj (hsame.symm.trans hact)
    obtain ⟨rfl, -⟩ := Prod.mk.inj hrest
    rw [hhttp, huser, hunknown, ← htoken₀]
    refine ⟨hwho.resolve_left ?_, rfl⟩
    rw [hunknown, site.userInfo_profile]
    exact not_not.mpr rfl
  · right
    obtain ⟨-, hrest⟩ := Prod.mk.inj (hsigned.symm.trans hact)
    obtain ⟨rfl, -⟩ := Prod.mk.inj hrest
    unfold Good
    rw [hhttp, huser]
    show presentedToken job₀.request.http ≠ "" ∧ _
    rw [← htoken₀]
    refine ⟨hne, hfound, ?_⟩
    rw [hunknown]

/-! ## Who accepted the license -/

/-- What an administrator has written, and maybe the end of a longer text behind it. -/
def FromAdmin (jobs : List (Job (ServerState τ) Request Entry)) (text : List Char) : Prop :=
  text = [] ∨ ∃ job ∈ jobs, job.request.user.profile = .admin ∧
    ∃ a ∈ job.request.accepted, ∃ tail, text = a.text ++ tail

variable {jobs jobs' : List (Job (ServerState τ) Request Entry)} {text : List Char}
  {job job' : Job (ServerState τ) Request Entry}

theorem FromAdmin.mono (h : FromAdmin jobs text)
    (hjobs : ∀ job ∈ jobs, job.request.user.profile = .admin →
      ∃ job' ∈ jobs', job'.request.user.profile = .admin ∧
        job.request.accepted ⊆ job'.request.accepted) : FromAdmin jobs' text := by
  rcases h with hnil | ⟨job, hjob, hadmin, a, ha, tail, htext⟩
  · exact .inl hnil
  · obtain ⟨job', hjob', hadmin', hsubset⟩ := hjobs job hjob hadmin
    exact .inr ⟨job', hjob', hadmin', a, hsubset ha, tail, htext⟩

/-- An administrator stays one, and what was written stays written. -/
theorem admin_stays (h : Job.Allowed (fun m ↦ Kept site m.target.target) job job' s s')
    (hadmin : job.request.user.profile = .admin) :
    job'.request.user.profile = .admin ∧ job.request.accepted ⊆ job'.request.accepted := by
  rcases h with ⟨hrequest, -⟩ | ⟨m, chain, -, hkept⟩
  · rw [hrequest]
    exact ⟨hadmin, List.Subset.refl _⟩
  · refine ⟨?_, hkept.accepted⟩
    rcases hkept.user with hsame | ⟨-, hanonymous, -⟩
    · rw [hsame]
      exact hadmin
    · rw [hanonymous] at hadmin
      cases hadmin

/-- The other jobs are still there when one of them is another one. -/
theorem admins_set {i : Nat} (hi : jobs[i]? = some job)
    (hown : job.request.user.profile = .admin →
      job'.request.user.profile = .admin ∧ job.request.accepted ⊆ job'.request.accepted) :
    ∀ other ∈ jobs, other.request.user.profile = .admin →
      ∃ other' ∈ jobs.set i job', other'.request.user.profile = .admin ∧
        other.request.accepted ⊆ other'.request.accepted := by
  intro other hother hadmin
  have hlength : i < jobs.length := (List.getElem?_eq_some_iff.mp hi).1
  obtain ⟨k, hk⟩ := List.getElem?_of_mem hother
  -- the job that has taken the step, or one of the others
  by_cases heq : i = k
  · subst heq
    obtain rfl := Option.some.inj (hi.symm.trans hk)
    exact ⟨job', List.mem_of_getElem? (List.getElem?_set_self hlength), hown hadmin⟩
  · have hstill : (jobs.set i job')[k]? = some other := by rw [List.getElem?_set_ne heq, hk]
    exact ⟨other, List.mem_of_getElem? hstill, hadmin, List.Subset.refl _⟩

theorem history_fromAdmin (site : Site τ) (s : ServerState τ) (hnone : s.acceptedLicense = none)
    (events : List (Event HttpRequest (Change τ))) :
    ∀ s' ∈ (serve site s events).history, ∀ text, s'.acceptedLicense = some text →
      FromAdmin (serve site s events).jobs text := by
  refine Server.run_invariant (F := fun past jobs ↦ ∀ s' ∈ past, ∀ text,
    s'.acceptedLicense = some text → FromAdmin jobs text) (entries_keep site entries) ?_ ?_ ?_ s
    ?_ events
  · -- a request comes in: those who have written are still there
    intro past jobs http h s' hs' text htext
    exact (h s' hs' text htext).mono fun job hjob hadmin ↦
      ⟨job, List.mem_append_left _ hjob, hadmin, List.Subset.refl _⟩
  · -- nothing but a request changes the file
    intro d s past jobs h s' hs' text htext
    rcases List.mem_cons.mp hs' with rfl | hs'
    · have hfile : (change d s).acceptedLicense = s.acceptedLicense := by cases d <;> rfl
      exact h s List.mem_cons_self text (hfile ▸ htext)
    · exact h s' hs' text htext
  · -- a request takes a step: it leaves the file, or empties it, or has just written it
    intro s s₁ past jobs i job job' hi hallowed h s' hs' text htext
    have hstill := admins_set hi (admin_stays hallowed)
    rcases List.mem_cons.mp hs' with rfl | hs'
    · rcases hallowed with ⟨-, rfl⟩ | ⟨m, chain, -, hkept⟩
      · exact (h _ List.mem_cons_self text htext).mono hstill
      · rcases hkept.acceptedLicense with hsame | hnil | ⟨hadmin, a, ha, tail, hwritten⟩
        · exact (h s List.mem_cons_self text (hsame ▸ htext)).mono hstill
        · left
          rw [hnil] at htext
          exact (Option.some.inj htext).symm
        · right
          have hlength : i < jobs.length := (List.getElem?_eq_some_iff.mp hi).1
          rw [hwritten] at htext
          exact ⟨job', List.mem_of_getElem? (List.getElem?_set_self hlength), hadmin, a, ha, tail,
            (Option.some.inj htext).symm⟩
    · exact (h s' hs' text htext).mono hstill
  · intro s' hs' text htext
    rw [List.mem_singleton.mp hs', hnone] at htext
    cases htext

/-- On a server that begins without an accepted license nobody but an administrator accepts it:
whatever is requested at the same time, the file is not there, or it is empty, or it begins with
what an administrator has written. -/
theorem serve_fromAdmin (site : Site τ) (s : ServerState τ) (hnone : s.acceptedLicense = none)
    (events : List (Event HttpRequest (Change τ))) :
    (serve site s events).now.acceptedLicense = none ∨
      ∃ text, (serve site s events).now.acceptedLicense = some text ∧
        FromAdmin (serve site s events).jobs text := by
  cases hfile : (serve site s events).now.acceptedLicense with
  | none => exact .inl rfl
  | some text =>
    right
    exact ⟨text, rfl, history_fromAdmin site s hnone events _ List.mem_cons_self text hfile⟩

theorem serve_checked (hjob : job ∈ (serve site s events).jobs)
    (hbehind : StandsBehind .license job)
    (hurl : apiPath ++ ['/'] <+: job.request.http.url.toList) :
    Once Current (serve site s events).history job.request ∧
      Once Accepted (serve site s events).history job.request := by
  refine serve_behind site (C := fun http ↦ apiPath ++ ['/'] <+: http.url.toList) find_license
    (fun _ h ↦ license_covers_iff.mpr h) ?_ ?_ s events job hjob hbehind hurl
  · exact (lasting_once Current).and (lasting_once Accepted)
  · rintro e' he' r r' s s' past hkept ⟨⟨s₀, hs₀, hcurrent⟩, s₁, hs₁, htext, htext', hne, hversion⟩
    have hsame : r'.currentLicenseVersion = r.currentLicenseVersion := by
      refine hkept.currentLicenseVersion.resolve_right ?_
      rintro (htarget | htarget)
      · exact (target_behind_license e' he').1 htarget
      · exact (target_behind_license e' he').2 htarget
    refine ⟨⟨s₀, List.mem_cons_of_mem s' hs₀, ?_⟩, s₁, List.mem_cons_of_mem s' hs₁, htext, htext',
      hne, hsame ▸ hversion⟩
    show s₀.licenseVersion = some r'.currentLicenseVersion
    rw [hsame]
    exact hcurrent

/-- On a server that begins without an accepted license a page of the API behind `license.ecpp` is
called only for a request that has seen the version of a license as the current one, and has read
it as the first word of what an administrator had written. -/
theorem serve_licensed (site : Site τ) (s : ServerState τ) (hnone : s.acceptedLicense = none)
    (events : List (Event HttpRequest (Change τ))) (job : Job (ServerState τ) Request Entry)
    (hjob : job ∈ (serve site s events).jobs) (hbehind : StandsBehind .license job)
    (m : Mapping (ServerState τ) Request Entry) (hm : job.chain.head? = some m)
    (hcovers : m.target.covers job.request.http.url job.request.http.method = true)
    (hswagger : m.target.target ≠ .page "swagger@libfty_rest")
    (hnotFound : m.target.target ≠ .notFound) :
    (∃ s' ∈ (serve site s events).history,
      s'.licenseVersion = some job.request.currentLicenseVersion) ∧
    ∃ admin ∈ (serve site s events).jobs, admin.request.user.profile = .admin ∧
      ∃ a ∈ admin.request.accepted,
        cText (readWord a.text).1 = job.request.currentLicenseVersion := by
  have hmem : m.target ∈ behind .license :=
    hbehind.subset (List.mem_map_of_mem (List.mem_of_mem_head? hm))
  have hurl := covered_behind_license hmem hswagger hnotFound hcovers
  obtain ⟨⟨s₀, hs₀, hcurrent⟩, s₁, hs₁, text, htext, hne, hversion⟩ :=
    serve_checked hjob hbehind hurl
  refine ⟨⟨s₀, hs₀, hcurrent⟩, ?_⟩
  -- an empty file has no first word
  rcases history_fromAdmin site s hnone events s₁ hs₁ text htext with
    rfl | ⟨admin, hadmin, hprofile, a, ha, tail, rfl⟩
  · exact absurd rfl hne
  · refine ⟨admin, hadmin, hprofile, a, ha, ?_⟩
    rw [← readWord_text_append a tail]
    exact hversion

/-! ## Every request of the API is answered -/

/-- The requests are served in the order in which they have come in. -/
theorem serve_http (site : Site τ) (s : ServerState τ)
    (events : List (Event HttpRequest (Change τ))) :
    (serve site s events).jobs.map (fun job ↦ job.request.http) =
      events.filterMap Event.arrival? := by
  have harrivals : (serve site s events).jobs.map (fun job ↦ job.request.http) =
      (events.filterMap Event.arrival?).map fun http ↦ (arrived site http).http :=
    Server.run_arrivals (φ := Request.http) (entries_keep site entries)
      (fun _ _ _ _ _ _ hkept ↦ hkept.http) s events
  exact harrivals.trans (List.map_id _)

/-- Whatever else the server does: a request of the API that gets as many turns as there are steps
in all the components is answered. -/
theorem serve_answered (site : Site τ) (s : ServerState τ)
    (events events' : List (Event HttpRequest (Change τ))) (http : HttpRequest)
    (hurl : apiPath <+: http.url.toList)
    (hturns : cost (entries.map (mapping site)) ≤
      events'.countP (Event.isTurn (serve site s events).jobs.length)) :
    ∃ job, (serve site s (events ++ .arrive http :: events')).jobs[
        (serve site s events).jobs.length]? = some job ∧
      job.request.http = http ∧ job.answered = true := by
  obtain ⟨job, hjob, hover⟩ := Server.run_over s events events' http hturns
  have hhttp : job.request.http = http := by
    have hlist := congrArg (·[(serve site s events).jobs.length]?)
      (serve_http site s (events ++ .arrive http :: events'))
    have hlength : (serve site s events).jobs.length =
        (events.filterMap Event.arrival?).length := by
      rw [← serve_http site s events, List.length_map]
    have hat : (serve site s (events ++ .arrive http :: events')).jobs[
        (serve site s events).jobs.length]? = some job := hjob
    simp only [List.getElem?_map, hat] at hlist
    rw [hlength, List.filterMap_append, List.getElem?_append_right (le_refl _),
      Nat.sub_self] at hlist
    exact Option.some.inj hlist
  refine ⟨job, hjob, hhttp, hover.resolve_right fun hnil ↦ ?_⟩
  -- nothing gets behind the last mapping
  have hbehind : StandsBehind .notFound job := by
    show job.chain.map (·.target) <:+ behind .notFound
    rw [hnil]
    exact List.nil_suffix
  exact serve_behind site (C := fun http ↦ apiPath <+: http.url.toList) find_notFound
    (fun _ h ↦ notFound_covers_iff.mpr h) (lasting_const _)
    (fun e' he' ↦ by rw [behind_notFound] at he'; cases he') s _ job (List.mem_of_getElem? hjob)
    hbehind (hhttp ▸ hurl)

end

/-! ## A site with one administrator -/

def adminFound : Found := ⟨.admin, 0, 0, ['a']⟩

/-- All pages decline. -/
def plainSite : Site Unit where
  noSsl := none
  reauthFallbackDefault := none
  databaseInitializedFile := some "/run/fty-db-ready"
  licenseFile := some "/license"
  acceptedLicenseFile := some "/accepted"
  userInfo := ⟨.anonymous, -1, -1, [], none⟩
  userInfo_profile := rfl
  checkRegexTextOrDie _ _ _ := .ok ()
  verifyToken _ token := if token = "admin" then adminFound else ⟨.anonymous, -1, -1, []⟩
  checkUserPermissions permissions user _ :=
    if user.profile ∈ permissions.map Prod.fst then .ok () else .error ⟨"not-authorized", [""]⟩
  listed permissions user _ h := by
    by_contra hnot
    rw [if_neg hnot] at h
    cases h
  startServices rest _ := (rest, .ok ())
  page _ rest _ := (rest, true)

def newServer : ServerState Unit := ⟨(), 0, true, some ['1'], none, true⟩

def adminRequest (method url : String) : HttpRequest :=
  ⟨url, method, "host", "", "10.0.0.1", true, "admin", none, none⟩

/-- The components up to the one that identifies the user. -/
def tokenEvents : List (Event HttpRequest (Change Unit)) :=
  .arrive (adminRequest "GET" "/api/v1/") :: List.replicate 22 (.turn 0)

theorem serve_authorized_admin :
    ∃ job, (serve plainSite newServer tokenEvents).jobs[0]? = some job ∧
      StandsBehind .authVerify job ∧ Secured plainSite job.request.http ∧
      ∃ before after job₀, tokenEvents = before ++ .turn 0 :: after ∧
        (serve plainSite newServer before).jobs[0]? = some job₀ ∧ AtAuthVerify plainSite job₀ ∧
        ((presentedToken job.request.http = "" ∧ job.request.user = plainSite.userInfo) ∨
          (presentedToken job.request.http ≠ "" ∧
            Good plainSite (serve plainSite newServer before).now job.request)) := by
  have hany : (serve plainSite newServer tokenEvents).jobs[0]?.any
      (fun job ↦ decide (StandsBehind .authVerify job)) = true := by decide +kernel
  obtain ⟨job, hjob, hbehind⟩ := (Option.any_eq_true _ _).mp hany
  have hbehind := of_decide_eq_true hbehind
  exact ⟨job, hjob, hbehind, serve_authorized plainSite newServer tokenEvents hjob hbehind⟩

/-- The license is accepted while something else is asked for. -/
def licenseEvents : List (Event HttpRequest (Change Unit)) :=
  .arrive (adminRequest "POST" "/api/v1/admin/license") ::
    .arrive (adminRequest "GET" "/api/v1/metric/current") ::
      (List.replicate 60 [.turn 0, .turn 1]).flatten

theorem serve_fromAdmin_accepted : newServer.acceptedLicense = none ∧
    ((serve plainSite newServer licenseEvents).now.acceptedLicense = none ∨
      ∃ text, (serve plainSite newServer licenseEvents).now.acceptedLicense = some text ∧
        FromAdmin (serve plainSite newServer licenseEvents).jobs text) :=
  ⟨rfl, serve_fromAdmin plainSite newServer rfl licenseEvents⟩

theorem serve_answered_admin :
    ∃ job, (serve plainSite newServer ([] ++ .arrive (adminRequest "GET" "/api/v1") ::
        List.replicate 300 (.turn 0))).jobs[
          (serve plainSite newServer []).jobs.length]? = some job ∧
      job.request.http = adminRequest "GET" "/api/v1" ∧ job.answered = true :=
  serve_answered plainSite newServer [] (List.replicate 300 (.turn 0))
    (adminRequest "GET" "/api/v1") (by decide +kernel) (by decide +kernel)

end FtyRest.Web
