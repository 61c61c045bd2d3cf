import FtyRest.Shared.CidrList

/-!
# The walk over a `CIDRList`

What one round of `next` does to the address, and from it what a whole iteration goes through.
An address `x` of the walk is kept, out of scope or excluded; in the last two cases the round
jumps, and `land` says where to.
-/

namespace FtyRest.Shared

open CIDRAddress

namespace CIDRList

variable {l : CIDRList} {x z : CIDRAddress}

/-- The longest prefix found, as `bestNetworkPrefixFor` and `bestExcludePrefixFor` return it. -/
theorem bestPrefix_spec (nets : List CIDRAddress) (x : CIDRAddress) :
    ((if (bestFor nets x).valid then (bestFor nets x).prefixLen else -1) = -1 ∧
        ∀ n ∈ nets, n.contains x = false) ∨
      (0 ≤ (bestFor nets x).prefixLen ∧ IsBest nets x (bestFor nets x) ∧
        (if (bestFor nets x).valid then (bestFor nets x).prefixLen else -1) =
          (bestFor nets x).prefixLen) := by
  rcases bestFor_spec nets x with ⟨hinv, hnone⟩ | hbest
  · left
    refine ⟨by rw [hinv]; rfl, hnone⟩
  · right
    exact ⟨prefixLen_nonneg hbest.valid, hbest, by rw [if_pos hbest.valid]⟩

theorem bestPrefix_congr {nets nets' : List CIDRAddress} (hmem : ∀ n, n ∈ nets ↔ n ∈ nets')
    (x : CIDRAddress) :
    (if (bestFor nets x).valid then (bestFor nets x).prefixLen else -1) =
      if (bestFor nets' x).valid then (bestFor nets' x).prefixLen else -1 := by
  rcases bestPrefix_spec nets x with ⟨hp, hnone⟩ | ⟨-, hbest, hp⟩ <;>
    rcases bestPrefix_spec nets' x with ⟨hp', hnone'⟩ | ⟨-, hbest', hp'⟩
  · rw [hp, hp']
  · have := hnone _ ((hmem _).mpr hbest'.mem)
    rw [hbest'.contains] at this
    simp at this
  · have := hnone' _ ((hmem _).mp hbest.mem)
    rw [hbest.contains] at this
    simp at this
  · rw [hp, hp', hbest.prefixLen_eq hbest' hmem]

/-! ## The three kinds of addresses -/

def OutOfScope (l : CIDRList) (x : CIDRAddress) : Prop := l.bestNetworkPrefixFor x = -1

def Excluded (l : CIDRList) (x : CIDRAddress) : Prop :=
  ¬ l.OutOfScope x ∧ l.bestNetworkPrefixFor x < l.bestExcludePrefixFor x

def Kept (l : CIDRList) (x : CIDRAddress) : Prop :=
  ¬ l.OutOfScope x ∧ l.bestExcludePrefixFor x ≤ l.bestNetworkPrefixFor x

instance : Decidable (l.OutOfScope x) := inferInstanceAs (Decidable (_ = _))

instance : Decidable (l.Excluded x) := inferInstanceAs (Decidable (_ ∧ _))

instance : Decidable (l.Kept x) := inferInstanceAs (Decidable (_ ∧ _))

theorem kind (l : CIDRList) (x : CIDRAddress) : l.OutOfScope x ∨ l.Excluded x ∨ l.Kept x := by
  unfold Excluded Kept
  have := lt_or_ge (l.bestNetworkPrefixFor x) (l.bestExcludePrefixFor x)
  tauto

theorem Kept.not_excluded (h : l.Kept x) : ¬ l.Excluded x := fun hx ↦ absurd hx.2 (not_lt.mpr h.2)

/-- `next` leaves out an address of its network, although it is kept. -/
def reserved (l : CIDRList) (x : CIDRAddress) : Bool :=
  let net := l.bestNetworkFor x
  net.prefixLen < 31 && (x.equals net.host || x.equals net.broadcast)

/-- Where the round that stands on `x` leaves the address. -/
def land (l : CIDRList) (x : CIDRAddress) : CIDRAddress :=
  if l.OutOfScope x then l.skipToNextPool x
  else if l.Excluded x then l.skipToExcludeEnd x
  else x

theorem outOfScope_iff : l.OutOfScope x ↔ ∀ n ∈ l.networks, n.contains x = false := by
  unfold OutOfScope bestNetworkPrefixFor bestNetworkFor
  rcases bestPrefix_spec l.networks x with ⟨hp, hnone⟩ | ⟨hpos, hbest, hp⟩
  · exact ⟨fun _ ↦ hnone, fun _ ↦ hp⟩
  · rw [hp]
    constructor
    · omega
    · intro hnone
      have := hnone _ hbest.mem
      rw [hbest.contains] at this
      simp at this

/-- An address in scope has a network of the longest prefix. -/
theorem isBest_network (h : ¬ l.OutOfScope x) :
    IsBest l.networks x (l.bestNetworkFor x) ∧
      l.bestNetworkPrefixFor x = (l.bestNetworkFor x).prefixLen := by
  unfold bestNetworkPrefixFor bestNetworkFor
  rcases bestPrefix_spec l.networks x with ⟨hp, -⟩ | ⟨-, hbest, hp⟩
  · exact absurd hp h
  · exact ⟨hbest, hp⟩

theorem isBest_exclude (h : l.Excluded x) :
    IsBest l.excludedNetworks x (l.bestExcludeFor x) ∧
      l.bestExcludePrefixFor x = (l.bestExcludeFor x).prefixLen := by
  have hnet := isBest_network h.1
  -- the exclude is longer than a prefix that is there, so it is there as well
  have hpos := prefixLen_nonneg hnet.1.valid
  have hlt := h.2
  unfold bestExcludePrefixFor bestExcludeFor at *
  rcases bestPrefix_spec l.excludedNetworks x with ⟨hp, -⟩ | ⟨-, hbest, hp⟩
  · omega
  · exact ⟨hbest, hp⟩

/-- The excludes around a kept address are no longer than its network. -/
theorem Kept.exclude_le (h : l.Kept x) {e : CIDRAddress} (he : e ∈ l.excludedNetworks)
    (hc : e.contains x = true) : e.prefixLen ≤ (l.bestNetworkFor x).prefixLen := by
  have hnet := isBest_network h.1
  have hle := h.2
  rw [hnet.2] at hle
  unfold bestExcludePrefixFor bestExcludeFor at hle
  rcases bestPrefix_spec l.excludedNetworks x with ⟨-, hnone⟩ | ⟨-, hbest, hp⟩
  · rw [hnone e he] at hc
    simp at hc
  · have := hbest.longest e he hc
    omega

/-! ## Where a round lands -/

theorem land_of_out (h : l.OutOfScope x) : l.land x = l.skipToNextPool x := by
  rw [land, if_pos h]

theorem land_of_excluded (h : l.Excluded x) : l.land x = l.skipToExcludeEnd x := by
  rw [land, if_neg h.1, if_pos h]

theorem land_of_kept (h : l.Kept x) : l.land x = x := by
  rw [land, if_neg h.1, if_neg h.not_excluded]

/-- `_skipToNextPool` leaves the address right before the next IPv4 network, or leaves nothing. -/
theorem skipToNextPool_spec (hv : ∀ n ∈ l.networks, n.valid = true) (hx : x.valid = true) :
    (l.skipToNextPool x = .invalid ∧ ∀ n ∈ l.networks, ¬ PoolAfter x n) ∨
      ((l.skipToNextPool x).protocol = x.protocol ∧ x.key ≤ (l.skipToNextPool x).key ∧
        (∃ n ∈ l.networks, PoolAfter x n ∧ (l.skipToNextPool x).key + 1 = n.key) ∧
        ∀ n ∈ l.networks, PoolAfter x n → (l.skipToNextPool x).key < n.key) := by
  unfold skipToNextPool
  rcases pools_spec x l.networks hv with ⟨hsel, hnone⟩ | ⟨n, hn, hsel, hpool, hmin⟩
  · left
    exact ⟨by rw [hsel]; rfl, hnone⟩
  · right
    have hvn := hv n hn
    have hn4 := (protocol_four_iff.mp hpool.2).2
    have hx4 : x.protocol = 4 := protocol_four_iff.mpr ⟨hx, hpool.1.trans hn4⟩
    have hkn : n.host.key = n.key := key_host hvn
    have hhost4 : n.host.protocol = 4 := protocol_four_iff.mpr ⟨valid_host hvn, by omega⟩
    -- the network is above a valid address, so the address in front of it is valid as well
    have hdec := key_preDec hx (hx4.trans hhost4.symm) (by rw [hkn]; exact hpool.1)
    rw [hsel]
    have hlt := hpool.1
    refine ⟨?_, by omega, ⟨n, hn, hpool, by omega⟩, ?_⟩
    · rw [hx4]
      refine protocol_four_iff.mpr ⟨valid_iff_key.mpr ?_, by omega⟩
      have := key_pos hx
      omega
    · intro m hm hmp
      have := hmin m hm hmp
      omega

/-- `_skipToExcludeEnd` stays in the exclude, and stops at the networks in there. -/
theorem skipToExcludeEnd_spec (hv : ∀ n ∈ l.networks, n.valid = true) (h : l.Excluded x)
    (hx : x.IsHost) :
    LandsInside x (l.bestExcludeFor x).broadcast l.networks (l.skipToExcludeEnd x) := by
  have hbest := (isBest_exclude h).1
  have hvx := (valid_of_contains hbest.contains).2
  have hend := (contains_host_iff hbest.valid hvx hx).mp hbest.contains
  refine excludes_spec l.networks hv hvx ?_ ?_
  · rw [protocol_broadcast hbest.valid, protocol_of_contains hbest.contains]
  · rw [key_broadcast hbest.valid]
    exact hend.2

/-- An exclude that hides an address is part of the address' network. -/
theorem Excluded.inside_network (h : l.Excluded x) :
    (l.bestNetworkFor x).loKey ≤ (l.bestExcludeFor x).loKey ∧
      (l.bestExcludeFor x).hiKey ≤ (l.bestNetworkFor x).hiKey := by
  obtain ⟨hnet, hni⟩ := isBest_network h.1
  obtain ⟨hexc, hei⟩ := isBest_exclude h
  have hlt := h.2
  exact nested hnet.contains hexc.contains (by omega)

/-! ## Rounds -/

/-- The list once an iteration has started. -/
def started (l : CIDRList) : CIDRList := { l with last := l.lastAddress }

/-- The address on which the round that starts in `s` stands. -/
def standing (s : CIDRList × CIDRAddress) : CIDRAddress := (s.1.nextSimple s.2).2

theorem nextBody_invalid {s : CIDRList × CIDRAddress} (h : (standing s).valid = false) :
    nextBody s = (false, s.1.nextSimple s.2) := by
  unfold standing at h
  simp [nextBody, h]

theorem nextBody_valid {s : CIDRList × CIDRAddress} (h : (standing s).valid = true) :
    nextBody s = (!(s.1.nextSimple s.2).1.Kept (standing s) ||
        (s.1.nextSimple s.2).1.reserved (standing s),
      (s.1.nextSimple s.2).1, (s.1.nextSimple s.2).1.land (standing s)) := by
  unfold standing at *
  unfold nextBody
  generalize s.1.nextSimple s.2 = t at *
  obtain ⟨l, x⟩ := t
  simp only [h, Bool.not_true, Bool.false_eq_true, if_false]
  rcases l.kind x with hout | hexc | hkept
  · have hnot : ¬ l.Kept x := fun hk ↦ hk.1 hout
    have hnone : l.bestNetworkPrefixFor x = -1 := hout
    rw [if_pos hnone, land_of_out hout]
    simp [hnot]
  · have hnot : ¬ l.Kept x := fun hk ↦ hk.not_excluded hexc
    have hsome : ¬ l.bestNetworkPrefixFor x = -1 := hexc.1
    rw [if_neg hsome, if_pos hexc.2, land_of_excluded hexc]
    simp [hnot]
  · have hsome : ¬ l.bestNetworkPrefixFor x = -1 := hkept.1
    rw [if_neg hsome, if_neg (not_lt.mpr hkept.2), land_of_kept hkept]
    simp only [hkept, decide_true, Bool.not_true, Bool.false_or]
    rfl

/-- A round of the iteration, whether the address it stands on is filtered or produced. -/
theorem resume_eq (s : CIDRList × CIDRAddress) :
    DoWhile.resume nextBody (·.2.valid) s =
      if (standing s).valid then
        some ((s.1.nextSimple s.2).1, (s.1.nextSimple s.2).1.land (standing s))
      else none := by
  cases hv : (standing s).valid with
  | false => simpa [DoWhile.resume, nextBody_invalid hv, standing] using hv
  | true =>
    rw [if_pos rfl]
    -- a round that goes on is filtered; one that stops has its address kept, and so valid
    cases hk : !decide ((s.1.nextSimple s.2).1.Kept (standing s)) ||
        (s.1.nextSimple s.2).1.reserved (standing s) with
    | true => exact DoWhile.resume_of_again (by rw [nextBody_valid hv, hk])
    | false =>
      refine DoWhile.resume_of_more (by rw [nextBody_valid hv, hk]) ?_
      simp only [Bool.or_eq_false_iff, Bool.not_eq_false', decide_eq_true_eq] at hk
      rw [land_of_kept hk.1]
      exact hv

/-- What is known before a round: nothing has been produced yet, or the address has come up from
the first one. -/
def OnWalk (l : CIDRList) (s : CIDRList × CIDRAddress) : Prop :=
  s = (l, .invalid) ∨
    s.1 = l.started ∧ s.2.valid = true ∧ s.2.protocol = l.firstAddress.protocol ∧
      l.firstAddress.key ≤ s.2.key

/-- What is known of the address on which a round stands. -/
structure StandsOn (l : CIDRList) (s : CIDRList × CIDRAddress) (x : CIDRAddress) : Prop where
  list : (s.1.nextSimple s.2).1 = l.started
  isHost : x.IsHost
  protocol : x.protocol = l.firstAddress.protocol
  ge_first : l.firstAddress.key ≤ x.key
  le_last : x = l.firstAddress ∨ x.key ≤ l.lastAddress.key
  above : s.2.key < x.key
  next : s.2.valid = true → x.key = s.2.key + 1

theorem firstAddress_isHost (hv : ∀ n ∈ l.networks, n.valid = true)
    (h : l.firstAddress.valid = true) : l.firstAddress.IsHost := by
  have hne : l.networks ≠ [] := by
    intro hnil
    rw [firstAddress_nil hnil] at h
    simp at h
  obtain ⟨n, hn, heq, -⟩ := firstAddress_spec hne hv
  exact heq ▸ isHost_host (hv n hn)

/-- The successor within a protocol. -/
theorem protocol_preInc {a : CIDRAddress} (ha : a.valid = true) (hi : a.preInc.valid = true) :
    a.preInc.key = a.key + 1 ∧ a.preInc.protocol = a.protocol := by
  have hpos := valid_iff_key.mp hi
  refine ⟨(key_preInc ha).resolve_right (fun h ↦ hpos h.1), ?_⟩
  obtain ⟨c, rfl, hc⟩ := valid_iff.mp ha
  rw [preInc_eq c hc] at hi ⊢
  exact (protocol_eq_iff _ _ ((valid_mk _).mp hi) hc).mpr rfl

theorem OnWalk.standsOn {s : CIDRList × CIDRAddress} (hv : ∀ n ∈ l.networks, n.valid = true)
    (hs : l.OnWalk s) (h : (standing s).valid = true) : l.StandsOn s (standing s) := by
  rcases hs with rfl | ⟨hl, hval, hproto, hge⟩
  · exact {
      list := rfl
      isHost := firstAddress_isHost hv h
      protocol := rfl
      ge_first := le_rfl
      le_last := Or.inl rfl
      above := key_pos h
      next := by simp }
  · have hnext : s.1.nextSimple s.2 =
        if s.2.preInc.gt l.lastAddress then (l.started, .invalid) else (l.started, s.2.preInc) := by
      simp [nextSimple, hval, hl, started]
    unfold standing at h
    -- behind the last address the round stands on nothing
    by_cases hgt : s.2.preInc.gt l.lastAddress = true
    · rw [hnext, if_pos hgt] at h
      simp at h
    · rw [if_neg hgt] at hnext
      have hst : standing s = s.2.preInc := by rw [standing, hnext]
      rw [hnext] at h
      obtain ⟨hkey, hprot⟩ := protocol_preInc hval h
      rw [hst]
      exact {
        list := by rw [hnext]
        isHost := isHost_preInc hval
        protocol := hprot.trans hproto
        ge_first := by omega
        le_last := Or.inr (not_lt.mp (fun hlt ↦ hgt (gt_iff.mpr hlt)))
        above := by omega
        next := fun _ ↦ hkey }

/-! ## Jumps

A round that stands on a gap has nowhere to go: the address comes out invalid, which is how the
next round is told to start over. -/

/-- An address between the first and the last one, in no network and below no IPv4 network. -/
structure Gap (l : CIDRList) (g : CIDRAddress) : Prop where
  isHost : g.IsHost
  valid : g.valid = true
  protocol : g.protocol = l.firstAddress.protocol
  not_before : g.lt l.firstAddress = false
  not_after : g.gt l.lastAddress = false
  out : l.OutOfScope g
  no_pool : ∀ n ∈ l.networks, n.gt g = true → n.protocol ≠ 4

theorem not_poolAfter_iff {n : CIDRAddress} :
    ¬ PoolAfter x n ↔ (n.gt x = true → n.protocol ≠ 4) := by
  rw [PoolAfter, gt_iff, not_and]

theorem firstAddress_in_scope (hv : ∀ n ∈ l.networks, n.valid = true)
    (h : l.firstAddress.valid = true) : ¬ l.OutOfScope l.firstAddress := by
  intro hout
  have hne : l.networks ≠ [] := by
    intro hnil
    rw [firstAddress_nil hnil] at h
    simp at h
  obtain ⟨n, hn, heq, -⟩ := firstAddress_spec hne hv
  have hvn := hv n hn
  have hcont : n.contains n.host = true := by
    rw [contains_host_iff hvn (valid_host hvn) (isHost_host hvn), key_host hvn]
    exact ⟨loKey_le_key hvn, key_le_hiKey hvn⟩
  have hnot := outOfScope_iff.mp hout n hn
  rw [heq, hcont] at hnot
  simp at hnot

theorem StandsOn.gap_of_invalid {s : CIDRList × CIDRAddress}
    (hv : ∀ n ∈ l.networks, n.valid = true) (hs : l.StandsOn s x) (hx : x.valid = true)
    (hland : (l.land x).valid = false) : l.Gap x ∧ l.land x = .invalid := by
  rcases l.kind x with hout | hexc | hkept
  · rw [land_of_out hout] at hland ⊢
    rcases skipToNextPool_spec hv hx with ⟨hinv, hnone⟩ | ⟨-, hle, -⟩
    · refine ⟨?_, hinv⟩
      -- the first address belongs to a network, so the round does not stand on it
      have hlast : x.key ≤ l.lastAddress.key := by
        refine hs.le_last.resolve_left ?_
        rintro rfl
        exact firstAddress_in_scope hv hx hout
      exact {
        isHost := hs.isHost
        valid := hx
        protocol := hs.protocol
        not_before := Bool.eq_false_iff.mpr (fun h ↦ by have := lt_iff.mp h; have := hs.ge_first; omega)
        not_after := Bool.eq_false_iff.mpr (fun h ↦ by have := gt_iff.mp h; omega)
        out := hout
        no_pool := fun n hn ↦ not_poolAfter_iff.mp (hnone n hn) }
    · have := key_pos hx
      have := key_eq_zero_iff.mpr hland
      omega
  · rw [land_of_excluded hexc] at hland
    have hge := (skipToExcludeEnd_spec hv hexc hs.isHost).ge
    have := key_pos hx
    have := key_eq_zero_iff.mpr hland
    omega
  · rw [land_of_kept hkept, hx] at hland
    simp at hland

/-- A round that does not stand on a gap goes up. -/
theorem StandsOn.land_up {s : CIDRList × CIDRAddress}
    (hv : ∀ n ∈ l.networks, n.valid = true) (hs : l.StandsOn s x) (hx : x.valid = true)
    (hland : (l.land x).valid = true) :
    (l.land x).protocol = l.firstAddress.protocol ∧ x.key ≤ (l.land x).key := by
  rw [← hs.protocol]
  rcases l.kind x with hout | hexc | hkept
  · rw [land_of_out hout] at hland ⊢
    rcases skipToNextPool_spec hv hx with ⟨hinv, -⟩ | ⟨hproto, hle, -⟩
    · rw [hinv] at hland
      simp at hland
    · exact ⟨hproto, hle⟩
  · rw [land_of_excluded hexc]
    have hlands := skipToExcludeEnd_spec hv hexc hs.isHost
    exact ⟨hlands.protocol, hlands.ge⟩
  · rw [land_of_kept hkept]
    exact ⟨rfl, le_rfl⟩

theorem resume_standsOn {s : CIDRList × CIDRAddress} (hv : ∀ n ∈ l.networks, n.valid = true)
    (hs : l.OnWalk s) (h : (standing s).valid = true) :
    DoWhile.resume nextBody (·.2.valid) s = some (l.started, l.land (standing s)) := by
  rw [resume_eq, if_pos h, (hs.standsOn hv h).list]
  rfl

/-- Without a gap to stand on, a round keeps `OnWalk` and raises the address. -/
theorem OnWalk.step {s t : CIDRList × CIDRAddress} (hv : ∀ n ∈ l.networks, n.valid = true)
    (hgap : ¬ ∃ g, l.Gap g) (hs : l.OnWalk s)
    (h : DoWhile.resume nextBody (·.2.valid) s = some t) :
    l.OnWalk t ∧ s.2.key < t.2.key := by
  have hx : (standing s).valid = true := by
    by_contra hx
    rw [resume_eq, if_neg hx] at h
    simp at h
  have hso := hs.standsOn hv hx
  rw [resume_standsOn hv hs hx, Option.some.injEq] at h
  subst h
  have hland : (l.land (standing s)).valid = true := by
    by_contra hland
    exact hgap ⟨_, (hso.gap_of_invalid hv hx (Bool.eq_false_iff.mpr hland)).1⟩
  obtain ⟨hproto, hup⟩ := hso.land_up hv hx hland
  exact ⟨Or.inr ⟨rfl, hland, hproto, hso.ge_first.trans hup⟩, hso.above.trans_le hup⟩

/-- Some round of the iteration stands on `x`. -/
def Stands (l : CIDRList) (x : CIDRAddress) : Prop :=
  x.valid = true ∧ ∃ s, DoWhile.Reaches nextBody (·.2.valid) (l, .invalid) s ∧ standing s = x

/-- Below an address of the same protocol `operator++` does not wrap. -/
theorem key_preInc_below {a : CIDRAddress} (ha : a.valid = true) (hp : a.protocol = z.protocol)
    (hlt : a.key < z.key) : a.preInc.key = a.key + 1 := by
  rcases key_preInc ha with h | ⟨-, htop | htop⟩
  · exact h
  · have h4 : a.protocol = 4 := protocol_four_iff.mpr ⟨ha, by omega⟩
    have := (protocol_four_iff.mp (hp ▸ h4)).2
    omega
  · have := key_lt z
    omega

theorem OnWalk.standing_le {s : CIDRList × CIDRAddress} (hs : l.OnWalk s)
    (hvz : z.valid = true) (hproto : z.protocol = l.firstAddress.protocol)
    (hfirst : l.firstAddress.key ≤ z.key) (hlast : z.key ≤ l.lastAddress.key)
    (hlo : s.2.key < z.key) : (standing s).valid = true ∧ (standing s).key ≤ z.key := by
  rcases hs with rfl | ⟨hl, hval, hp, hge⟩
  · refine ⟨?_, hfirst⟩
    change l.firstAddress.valid = true
    by_contra hinv
    rw [protocol_of_not_valid (Bool.eq_false_iff.mpr hinv)] at hproto
    rcases protocol_of_valid hvz with h | h <;> omega
  · have hinc := key_preInc_below hval (hp.trans hproto.symm) hlo
    have hgt : s.2.preInc.gt l.lastAddress = false := by
      refine Bool.eq_false_iff.mpr fun h ↦ ?_
      have := gt_iff.mp h
      omega
    have hst : standing s = s.2.preInc := by
      simp [standing, nextSimple, hval, hl, started, hgt]
    rw [hst, valid_iff_key]
    omega

/-- Every address up to the last one is stood on or jumped over, unless the walk starts over. -/
theorem OnWalk.stands_or_jumps {s : CIDRList × CIDRAddress}
    (hv : ∀ n ∈ l.networks, n.valid = true) (hs : l.OnWalk s) (hz : z.IsHost)
    (hvz : z.valid = true) (hproto : z.protocol = l.firstAddress.protocol)
    (hfirst : l.firstAddress.key ≤ z.key) (hlast : z.key ≤ l.lastAddress.key)
    (hlo : s.2.key < z.key) :
    ∃ t, DoWhile.Reaches nextBody (·.2.valid) s t ∧ l.OnWalk t ∧ (standing t).valid = true ∧
      (standing t = z ∨
        (standing t).key < z.key ∧
          ((l.land (standing t)).valid = false ∨ z.key ≤ (l.land (standing t)).key)) := by
  induction hn : z.key - s.2.key using Nat.strong_induction_on generalizing s with
  | h n ih =>
    obtain ⟨hx, hle⟩ := hs.standing_le hvz hproto hfirst hlast hlo
    have hso := hs.standsOn hv hx
    -- the induction is on what is left to go up to `z`
    by_cases heq : standing s = z
    · exact ⟨s, .refl, hs, hx, Or.inl heq⟩
    have hlt : (standing s).key < z.key :=
      lt_of_le_of_ne hle fun h ↦ heq (eq_of_key_eq hso.isHost hz hx h)
    by_cases hland : (l.land (standing s)).valid = true
    · by_cases hover : z.key ≤ (l.land (standing s)).key
      · exact ⟨s, .refl, hs, hx, Or.inr ⟨hlt, Or.inr hover⟩⟩
      · obtain ⟨hp, hup⟩ := hso.land_up hv hx hland
        have habove := hso.above
        obtain ⟨t, ht, hot⟩ := ih (z.key - (l.land (standing s)).key) (by omega)
          (s := (l.started, l.land (standing s)))
          (Or.inr ⟨rfl, hland, hp, hso.ge_first.trans hup⟩) (by simp only; omega) rfl
        exact ⟨t, ht.head (resume_standsOn hv hs hx), hot⟩
    · exact ⟨s, .refl, hs, hx, Or.inr ⟨hlt, Or.inl (Bool.eq_false_iff.mpr hland)⟩⟩

/-! ## The whole iteration -/

theorem walk_of_drain (fuel : Nat) {xs : List CIDRAddress}
    (h : (DoWhile.drain nextBody (·.2.valid) fuel (l, .invalid)).map (·.map Prod.snd) = some xs) :
    l.Walk xs := by
  obtain ⟨ts, hts, rfl⟩ := Option.map_eq_some_iff.mp h
  exact ⟨ts, DoWhile.drains_of_drain hts, rfl⟩

/-- Without gaps the iteration ends, and goes up all the way. -/
theorem walk_of_no_gap (hv : ∀ n ∈ l.networks, n.valid = true) (hgap : ¬ ∃ g, l.Gap g) :
    ∃ xs, l.Walk xs ∧ xs.Pairwise (fun a b ↦ a.lt b = true) := by
  -- every round goes up, and the keys have a bound
  obtain ⟨ts, hts⟩ := DoWhile.drains_of_variant l.OnWalk
    (fun s ↦ 2 ^ 32 + 2 ^ 128 - s.2.key)
    (fun s t hs h ↦ by
      obtain ⟨ht, hlt⟩ := hs.step hv hgap h
      have := key_lt t.2
      exact ⟨ht, by omega⟩)
    (Or.inl rfl : l.OnWalk (l, .invalid))
  refine ⟨ts.map Prod.snd, ⟨ts, hts, rfl⟩, ?_⟩
  rw [List.pairwise_map]
  refine (DoWhile.Drains.pairwise_lt l.OnWalk (fun s ↦ s.2.key)
    (fun s t hs h ↦ hs.step hv hgap h) hts (Or.inl rfl)).2.imp ?_
  exact fun h ↦ lt_iff.mpr h

/-- A gap makes the walk start over: it jumps onto nothing before it could get past. -/
theorem starts_over (hv : ∀ n ∈ l.networks, n.valid = true) {g : CIDRAddress} (hg : l.Gap g) :
    Relation.TransGen (fun s t ↦ DoWhile.resume nextBody (·.2.valid) s = some t)
      (l, .invalid) (l.started, .invalid) := by
  have hfirst : l.firstAddress.key ≤ g.key :=
    not_lt.mp fun h ↦ by simpa [hg.not_before] using lt_iff.mpr h
  have hlast : g.key ≤ l.lastAddress.key :=
    not_lt.mp fun h ↦ by simpa [hg.not_after] using gt_iff.mpr h
  have hon : l.OnWalk (l, .invalid) := Or.inl rfl
  obtain ⟨t, ht, hot, hx, hcase⟩ := hon.stands_or_jumps hv hg.isHost hg.valid hg.protocol hfirst
    hlast (key_pos hg.valid)
  have hso := hot.standsOn hv hx
  -- everything else the round could do would leave it below the gap
  have hinv : (l.land (standing t)).valid = false := by
    rcases hcase with heq | ⟨hlt, hinv | hover⟩
    · rw [heq, land_of_out hg.out]
      rcases skipToNextPool_spec hv hg.valid with ⟨h, -⟩ | ⟨-, -, ⟨n, hn, hp, -⟩, -⟩
      · rw [h]
        rfl
      · exact absurd hp (not_poolAfter_iff.mpr (hg.no_pool n hn))
    · exact hinv
    · exfalso
      rcases l.kind (standing t) with hout | hexc | hkept
      · rw [land_of_out hout] at hover
        rcases skipToNextPool_spec hv hx with ⟨h, -⟩ | ⟨-, -, ⟨n, hn, hp, hk⟩, -⟩
        · have := key_pos hg.valid
          rw [h, key_invalid] at hover
          omega
        · exact not_poolAfter_iff.mpr (hg.no_pool n hn) ⟨by omega, hp.2⟩
      · rw [land_of_excluded hexc] at hover
        have hend := (skipToExcludeEnd_spec hv hexc hso.isHost).le_end
        have hnet := (isBest_network hexc.1).1
        rw [key_broadcast (isBest_exclude hexc).1.valid] at hend
        have hin := (contains_host_iff hnet.valid hx hso.isHost).mp hnet.contains
        have hcont : (l.bestNetworkFor (standing t)).contains g = true := by
          rw [contains_host_iff hnet.valid hg.valid hg.isHost]
          have := hexc.inside_network
          omega
        have hnot := outOfScope_iff.mp hg.out _ hnet.mem
        rw [hcont] at hnot
        simp at hnot
      · rw [land_of_kept hkept] at hover
        omega
  have hres := resume_standsOn hv hot hx
  rw [(hso.gap_of_invalid hv hx hinv).2] at hres
  exact Relation.TransGen.tail' ht hres

/-- The iteration starts over from its own beginning, so it does so again and again. -/
theorem not_walk_of_gap (hv : ∀ n ∈ l.networks, n.valid = true) {g : CIDRAddress}
    (hg : l.Gap g) (xs : List CIDRAddress) : ¬ l.Walk xs := by
  rintro ⟨ts, hts, -⟩
  have hover := starts_over hv hg
  obtain ⟨u, hu, hrest⟩ := Relation.TransGen.head'_iff.mp hover
  -- started or not, the first round does the same
  have hagain : DoWhile.resume nextBody (·.2.valid) (l.started, .invalid) = some u := by
    rw [← hu, resume_eq, resume_eq]
    rfl
  exact hts.not_returns hover.to_reflTransGen (Relation.TransGen.head' hagain hrest)

/-- The walk over a list ends, without an address produced twice, when it meets no gap. -/
theorem walk_ends_iff (calls : List (ListCall CIDRAddress)) :
    (∃ xs, (filled calls).Walk xs ∧ xs.Nodup) ↔ ¬ ∃ g, (filled calls).Gap g := by
  have hv : ∀ n ∈ (filled calls).networks, n.valid = true :=
    fun n hn ↦ (((filledFrom_filled calls).networks n).mp hn).1
  constructor
  · rintro ⟨xs, hxs, -⟩ ⟨g, hg⟩
    exact not_walk_of_gap hv hg xs hxs
  · intro hgap
    obtain ⟨xs, hxs, hsorted⟩ := walk_of_no_gap hv hgap
    refine ⟨xs, hxs, hsorted.imp ?_⟩
    rintro a b hlt rfl
    exact lt_irrefl _ (lt_iff.mp hlt)

/-- `10.0.0.1/32` and `::1`: on `10.0.0.2` the walk starts over. -/
theorem walk_mixed_does_not_end :
    ¬ ∃ xs, (filled [.add (ipv4 0x0A000001), .add ⟨some (.single .ipv6 1)⟩]).Walk xs ∧
      xs.Nodup := by
  rintro ⟨xs, hxs, -⟩
  refine not_walk_of_gap (by decide +kernel) (g := ipv4 0x0A000002) ?_ xs hxs
  exact {
    isHost := isHost_single _ _
    valid := by decide +kernel
    protocol := by decide +kernel
    not_before := by decide +kernel
    not_after := by decide +kernel
    out := by decide +kernel
    no_pool := by decide +kernel }

end CIDRList

end FtyRest.Shared
