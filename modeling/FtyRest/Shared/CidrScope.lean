import FtyRest.Shared.CidrWalk
import Mathlib.Data.List.Sort

/-!
# What a `CIDRList` yields

The addresses an IPv4 list is meant to yield, the addresses its iteration yields, and exactly
where the two part.
-/

namespace FtyRest.Shared

open CIDRAddress

/-- An IPv4 network written with its network address. -/
structure Ipv4Net where
  net : CIDRAddress
  protocol : net.protocol = 4
  written : net.network = net

def ListCall.map {α β : Type} (f : α → β) : ListCall α → ListCall β
  | .add net => .add (f net)
  | .exclude net => .exclude (f net)

/-- The list after calls with IPv4 networks. -/
def CIDRList.filled4 (calls : List (ListCall Ipv4Net)) : CIDRList :=
  .filled (calls.map (.map Ipv4Net.net))

/-- The addresses that `cidr.h` promises: in the longest added network around the address, longer
than every exclude around it, and neither its network address nor its broadcast. -/
structure InScope (calls : List (ListCall Ipv4Net)) (a : CIDRAddress) : Prop where
  isHost : a.IsHost
  network : ∃ n : Ipv4Net, .add n ∈ calls ∧ n.net.contains a = true ∧
    (∀ m : Ipv4Net, .add m ∈ calls → m.net.contains a = true →
      m.net.prefixLen ≤ n.net.prefixLen) ∧
    (∀ e : Ipv4Net, .exclude e ∈ calls → e.net.contains a = true →
      e.net.prefixLen < n.net.prefixLen) ∧
    (n.net.prefixLen < 31 → a ≠ n.net.network.host ∧ a ≠ n.net.broadcast.host)

namespace Ipv4Net

/-- The network `n/len`. -/
def of (n len : Nat) (hn : n < 2 ^ 32 := by decide) (hlen : len ≤ 32 := by decide)
    (hpos : n ≠ 0 := by decide) (hw : PrefixBlock.lo (32 - len) n = n := by decide) : Ipv4Net where
  net := ⟨some ⟨.ipv4, n, len, hn, hlen⟩⟩
  protocol := by rw [protocol_mk _ hpos]
  written := by
    have hv := (valid_mk ⟨.ipv4, n, len, hn, hlen⟩).mpr hpos
    simp only [network, derived, hv, if_true, cidrAddrNetwork, Cidr.hostBits, Proto.bits, hw]

variable (n : Ipv4Net)

theorem valid : n.net.valid = true := (protocol_four_iff.mp n.protocol).1

theorem loKey_eq : n.net.loKey = n.net.key := by
  obtain ⟨c, hn, hc⟩ := valid_iff.mp n.valid
  have hw := n.written
  rw [hn] at hw ⊢
  simp only [network, derived, (valid_mk c).mpr hc, if_true, CIDRAddress.mk.injEq,
    Option.some.injEq] at hw
  rw [key_mk c hc]
  have haddr : PrefixBlock.lo c.hostBits c.addr = c.addr := congrArg Cidr.addr hw
  simp only [loKey, haddr]

end Ipv4Net

namespace CIDRList

variable {l : CIDRList} {x z : CIDRAddress}

/-- What the walk over an IPv4 list relies on. -/
structure Canonical (l : CIDRList) : Prop where
  protocol : ∀ n ∈ l.networks, n.protocol = 4
  loKey : ∀ n ∈ l.networks, n.loKey = n.key

theorem Canonical.valid (hl : l.Canonical) : ∀ n ∈ l.networks, n.valid = true :=
  fun n hn ↦ (protocol_four_iff.mp (hl.protocol n hn)).1

theorem mem_networks_filled4 {calls : List (ListCall Ipv4Net)} {n : CIDRAddress} :
    n ∈ (filled4 calls).networks ↔ ∃ m : Ipv4Net, .add m ∈ calls ∧ m.net = n := by
  rw [filled4, (filledFrom_filled _).networks, List.mem_map]
  constructor
  · rintro ⟨-, ⟨m | m, hm, hmap⟩⟩
    · simp only [ListCall.map, ListCall.add.injEq] at hmap
      exact ⟨m, hm, hmap⟩
    · simp [ListCall.map] at hmap
  · rintro ⟨m, hm, rfl⟩
    exact ⟨m.valid, .add m, hm, rfl⟩

theorem mem_excludes_filled4 {calls : List (ListCall Ipv4Net)} {n : CIDRAddress} :
    n ∈ (filled4 calls).excludedNetworks ↔ ∃ m : Ipv4Net, .exclude m ∈ calls ∧ m.net = n := by
  rw [filled4, (filledFrom_filled _).excludes, List.mem_map]
  constructor
  · rintro ⟨-, ⟨m | m, hm, hmap⟩⟩
    · simp [ListCall.map] at hmap
    · simp only [ListCall.map, ListCall.exclude.injEq] at hmap
      exact ⟨m, hm, hmap⟩
  · rintro ⟨m, hm, rfl⟩
    exact ⟨m.valid, .exclude m, hm, rfl⟩

theorem canonical_filled4 (calls : List (ListCall Ipv4Net)) : (filled4 calls).Canonical := by
  constructor
  · intro n hn
    obtain ⟨m, -, rfl⟩ := mem_networks_filled4.mp hn
    exact m.protocol
  · intro n hn
    obtain ⟨m, -, rfl⟩ := mem_networks_filled4.mp hn
    exact m.loKey_eq

/-! ## The walk over an IPv4 list -/

/-- A network that starts behind an address out of it starts a pool behind it. -/
theorem Canonical.key_of_not_contains (hl : l.Canonical) {n : CIDRAddress} (hn : n ∈ l.networks)
    (hx : x.IsHost) (hvx : x.valid = true) (hout : n.contains x = false)
    (hhi : x.key ≤ n.hiKey) : x.key < n.key := by
  by_contra hge
  have hcont : n.contains x = true := by
    rw [contains_host_iff (hl.valid n hn) hvx hx, hl.loKey n hn]
    omega
  rw [hcont] at hout
  simp at hout

theorem Canonical.no_gap (hl : l.Canonical) : ¬ ∃ g, l.Gap g := by
  rintro ⟨g, hg⟩
  have hlast : g.key ≤ l.lastAddress.key :=
    not_lt.mp fun h ↦ by simpa [hg.not_after] using gt_iff.mpr h
  have hne : l.networks ≠ [] := by
    intro hnil
    have := key_pos hg.valid
    rw [lastAddress_nil hnil, key_invalid] at hlast
    omega
  obtain ⟨n, hn, heq, -⟩ := lastAddress_spec hne
  have hle := key_hostMax_le (hl.valid n hn)
  rw [heq] at hlast
  have hlt := hl.key_of_not_contains hn hg.isHost hg.valid (outOfScope_iff.mp hg.out n hn)
    (hlast.trans hle)
  exact hg.no_pool n hn (gt_iff.mpr hlt) (hl.protocol n hn)

/-- A round jumps over an address of a network only when it leaves an exclude. -/
theorem Canonical.excluded_of_jump (hl : l.Canonical) (hx : x.IsHost) (hvx : x.valid = true)
    {n : CIDRAddress} (hn : n ∈ l.networks) (hc : n.contains z = true) (hz : z.IsHost)
    (hlt : x.key < z.key) (hover : z.key ≤ (l.land x).key) : l.Excluded x := by
  have hin := (contains_host_iff (hl.valid n hn) (valid_of_contains hc).2 hz).mp hc
  have hlo := hl.loKey n hn
  rcases l.kind x with hout | hexc | hk
  · exfalso
    rw [land_of_out hout] at hover
    have hpool : PoolAfter x n :=
      ⟨hl.key_of_not_contains hn hx hvx (outOfScope_iff.mp hout n hn) (by omega), hl.protocol n hn⟩
    rcases skipToNextPool_spec hl.valid hvx with ⟨-, hnone⟩ | ⟨-, -, -, hbelow⟩
    · exact hnone n hn hpool
    · have := hbelow n hn hpool
      omega
  · exact hexc
  · rw [land_of_kept hk] at hover
    omega

/-- The round does not go past the start of a network. -/
theorem Excluded.skipToExcludeEnd_le (hv : ∀ n ∈ l.networks, n.valid = true) (h : l.Excluded x)
    (hx : x.IsHost) {n : CIDRAddress} (hn : n ∈ l.networks) (hlt : x.key < n.key) :
    (l.skipToExcludeEnd x).key ≤ n.key := by
  have hlands := skipToExcludeEnd_spec hv h hx
  by_cases hinside : n.key < (l.bestExcludeFor x).broadcast.key
  · exact hlands.le_nets n hn ⟨hlt, hinside⟩
  · exact hlands.le_end.trans (not_lt.mp hinside)

/-- An address that is kept and jumped over is the start of its network, on which the round that
leaves the exclude lands. -/
theorem Canonical.start_of_jump (hl : l.Canonical) (hx : x.IsHost) (hvx : x.valid = true)
    (hz : z.IsHost) (hkept : l.Kept z) (hlt : x.key < z.key)
    (hover : z.key ≤ (l.land x).key) :
    (∃ n ∈ l.networks, n.host = z) ∧ (l.skipToExcludeEnd x).key = z.key := by
  have hbest := (isBest_network hkept.1).1
  have hvz := (valid_of_contains hbest.contains).2
  have hin := (contains_host_iff hbest.valid hvz hz).mp hbest.contains
  have hlo := hl.loKey _ hbest.mem
  have hexc := hl.excluded_of_jump hx hvx hbest.mem hbest.contains hz hlt hover
  rw [land_of_excluded hexc] at hover
  obtain ⟨hexcl, hei⟩ := isBest_exclude hexc
  obtain ⟨hnet, hni⟩ := isBest_network hexc.1
  have hend := (skipToExcludeEnd_spec hl.valid hexc hx).le_end
  have hexin := (contains_host_iff hexcl.valid hvx hx).mp hexcl.contains
  rw [key_broadcast hexcl.valid] at hend
  -- the exclude around `x` is around `z` too, so the network of `z` lies inside it
  have hez : (l.bestExcludeFor x).contains z = true := by
    rw [contains_host_iff hexcl.valid hvz hz]
    omega
  have hnest := nested hez hbest.contains (hkept.exclude_le hexcl.mem hez)
  -- and it starts behind `x`, which has a shorter network
  have hnot : (l.bestNetworkFor z).contains x = false := by
    refine Bool.eq_false_iff.mpr fun hcont ↦ ?_
    have := hnet.longest _ hbest.mem hcont
    have := hexc.2
    have := hkept.exclude_le hexcl.mem hez
    omega
  have hbehind := hl.key_of_not_contains hbest.mem hx hvx hnot (by omega)
  have hle := hexc.skipToExcludeEnd_le hl.valid hx hbest.mem hbehind
  refine ⟨⟨_, hbest.mem, ((eq_host_iff hz hvz hbest.valid).mpr (by omega)).symm⟩, by omega⟩

/-! ## What the walk produces -/

theorem onWalk_reaches (hl : l.Canonical) {s : CIDRList × CIDRAddress}
    (h : DoWhile.Reaches nextBody (·.2.valid) (l, .invalid) s) : l.OnWalk s :=
  h.invariant (fun _ _ hs hst ↦ (hs.step hl.valid hl.no_gap hst).1) (Or.inl rfl)

theorem key_le_of_reaches (hl : l.Canonical) {s t : CIDRList × CIDRAddress} (hs : l.OnWalk s)
    (h : DoWhile.Reaches nextBody (·.2.valid) s t) : s.2.key ≤ t.2.key := by
  have hkeep : l.OnWalk t ∧ s.2.key ≤ t.2.key := by
    refine h.invariant (I := fun t ↦ l.OnWalk t ∧ s.2.key ≤ t.2.key) ?_ ⟨hs, le_rfl⟩
    intro u v hu huv
    obtain ⟨hv, hlt⟩ := hu.1.step hl.valid hl.no_gap huv
    exact ⟨hv, hu.2.trans hlt.le⟩
  exact hkeep.2

/-- What a round jumps over or onto is not stood on by any other round. -/
theorem Canonical.not_stands_of_jump (hl : l.Canonical) (hx : l.Stands x) (hlt : x.key < z.key)
    (hover : z.key ≤ (l.land x).key) : ¬ l.Stands z := by
  obtain ⟨hvx, s, hs, rfl⟩ := hx
  rintro ⟨hvz, t, ht, rfl⟩
  have hos := onWalk_reaches hl hs
  have hot := onWalk_reaches hl ht
  have hss := hos.standsOn hl.valid hvx
  have hst := hot.standsOn hl.valid hvz
  have hres := resume_standsOn hl.valid hos hvx
  have hret := resume_standsOn hl.valid hot hvz
  -- the walk is one path: one of the two states comes behind the other
  rcases hs.total ht with hreach | hreach
  · rcases Relation.ReflTransGen.cases_head hreach with rfl | ⟨u, hu, hrest⟩
    · omega
    · rw [hres, Option.some.injEq] at hu
      subst hu
      have hle := key_le_of_reaches hl (hos.step hl.valid hl.no_gap hres).1 hrest
      have := hst.above
      simp only at hle
      omega
  · rcases Relation.ReflTransGen.cases_head hreach with rfl | ⟨u, hu, hrest⟩
    · omega
    · rw [hret, Option.some.injEq] at hu
      subst hu
      have hout := (hot.step hl.valid hl.no_gap hret).1
      have hle := key_le_of_reaches hl hout hrest
      have hup : (standing t).key ≤ (l.land (standing t)).key := by
        -- a step that lands nowhere would leave a gap
        rcases hout with h | ⟨-, hval, -⟩
        · have hinv : (l.land (standing t)).valid = false := by rw [(Prod.mk.inj h).2]; rfl
          exact absurd ⟨_, (hst.gap_of_invalid hl.valid hvz hinv).1⟩ hl.no_gap
        · exact (hst.land_up hl.valid hvz hval).2
      have := hss.above
      simp only at hle
      omega

theorem mem_walk_iff {xs : List CIDRAddress} (hl : l.Canonical) (h : l.Walk xs) :
    z ∈ xs ↔ l.Stands z ∧ l.Kept z ∧ l.reserved z = false := by
  obtain ⟨ts, hts, rfl⟩ := h
  -- on the walk the list stays as it is, so each turn is one of the same list
  have hbody : ∀ s, DoWhile.Reaches nextBody (·.2.valid) (l, .invalid) s →
      (standing s).valid = true →
      nextBody s = (!l.Kept (standing s) || l.reserved (standing s), l.started,
        l.land (standing s)) := by
    intro s hs hv
    rw [nextBody_valid hv, ((onWalk_reaches hl hs).standsOn hl.valid hv).list]
    rfl
  simp only [List.mem_map, hts.mem_iff]
  constructor
  · rintro ⟨t, ⟨s, hs, hb, ht⟩, rfl⟩
    have hv : (standing s).valid = true := by
      by_contra hv
      rw [nextBody_invalid (Bool.eq_false_iff.mpr hv)] at hb
      have : (standing s).valid = true := by rw [standing, (Prod.mk.inj hb).2, ht]
      exact hv this
    rw [hbody s hs hv, Prod.mk.injEq] at hb
    obtain ⟨hgo, rfl⟩ := hb
    simp only [Bool.or_eq_false_iff, Bool.not_eq_false', decide_eq_true_eq] at hgo
    simp only [land_of_kept hgo.1]
    exact ⟨⟨hv, s, hs, rfl⟩, hgo⟩
  · rintro ⟨⟨hv, s, hs, rfl⟩, hkept, hres⟩
    refine ⟨(l.started, standing s), ⟨s, hs, ?_, hv⟩, rfl⟩
    rw [hbody s hs hv, land_of_kept hkept]
    simp [hkept, hres]

/-- The comparison with the broadcast never holds, as that one has the prefix of the network. -/
theorem Canonical.reserved_iff (hl : l.Canonical) (hz : z.IsHost) (hscope : ¬ l.OutOfScope z) :
    l.reserved z = true ↔
      (l.bestNetworkFor z).prefixLen < 31 ∧ z.key = (l.bestNetworkFor z).key := by
  have hbest := (isBest_network hscope).1
  have hvz := (valid_of_contains hbest.contains).2
  have h4 : z.protocol = 4 :=
    (protocol_of_contains hbest.contains).symm.trans (hl.protocol _ hbest.mem)
  have hhost : z.equals (l.bestNetworkFor z).host = true ↔ z.key = (l.bestNetworkFor z).key := by
    rw [equals_iff hvz (valid_host hbest.valid), eq_host_iff hz hvz hbest.valid]
  -- `operator==` compares the prefixes as well, and `z` is a host address
  have hbcast : (l.bestNetworkFor z).prefixLen < 31 →
      z.equals (l.bestNetworkFor z).broadcast = false := by
    intro hlt
    refine Bool.eq_false_iff.mpr fun heq ↦ ?_
    have hpl := congrArg prefixLen ((equals_iff hvz (valid_broadcast hbest.valid)).mp heq)
    rw [prefixLen_isHost hz h4, prefixLen_broadcast hbest.valid] at hpl
    omega
  unfold reserved
  rw [Bool.and_eq_true, decide_eq_true_eq, Bool.or_eq_true, hhost]
  constructor
  · rintro ⟨hlt, h | h⟩
    · exact ⟨hlt, h⟩
    · rw [hbcast hlt] at h
      simp at h
  · rintro ⟨hlt, h⟩
    exact ⟨hlt, Or.inl h⟩

/-- The addresses that the filter of `next` lets through. -/
structure Yields (l : CIDRList) (z : CIDRAddress) : Prop where
  isHost : z.IsHost
  kept : l.Kept z
  not_reserved : l.reserved z = false
  not_after : z.gt l.lastAddress = false

/-- A round leaves an exclude for the address `z`, so that the next one starts behind it. -/
def SkipsOnto (l : CIDRList) (z : CIDRAddress) : Prop :=
  ∃ x, l.Stands x ∧ l.Excluded x ∧ x.key < z.key ∧ (l.skipToExcludeEnd x).key = z.key

theorem Canonical.first_le (hl : l.Canonical) {n : CIDRAddress} (hn : n ∈ l.networks)
    (hc : n.contains z = true) (hz : z.IsHost) :
    z.protocol = l.firstAddress.protocol ∧ l.firstAddress.key ≤ z.key := by
  have hin := (contains_host_iff (hl.valid n hn) (valid_of_contains hc).2 hz).mp hc
  rw [hl.loKey n hn] at hin
  obtain ⟨m, hm, heq, hmin⟩ := firstAddress_spec (List.ne_nil_of_mem hn) hl.valid
  have hvm := hl.valid m hm
  have hle := hmin n hn
  have hm4 := protocol_four_iff.mp (hl.protocol m hm)
  rw [heq, key_host hvm, ← protocol_of_contains hc, hl.protocol n hn]
  refine ⟨?_, by omega⟩
  exact (protocol_four_iff.mpr ⟨valid_host hvm, by rw [key_host hvm]; exact hm4.2⟩).symm

/-- The last host of the list is behind every address of a network, but for its broadcast. -/
theorem Canonical.le_last (hl : l.Canonical) {n : CIDRAddress} (hn : n ∈ l.networks)
    (hz : z.key ≤ n.hiKey) (hb : n.prefixLen < 31 → z.key ≠ n.hiKey) :
    z.key ≤ l.lastAddress.key := by
  obtain ⟨m, -, heq, hmax⟩ := lastAddress_spec (List.ne_nil_of_mem hn)
  have hle := hmax n hn
  have hlast := key_hostMax_four (hl.protocol n hn)
  rw [heq]
  by_cases hlt : n.prefixLen < 31
  · have := hb hlt
    rw [if_pos hlt] at hlast
    omega
  · rw [if_neg hlt] at hlast
    omega

theorem Stands.isHost (hl : l.Canonical) (h : l.Stands x) : x.IsHost := by
  obtain ⟨hv, s, hs, rfl⟩ := h
  exact ((onWalk_reaches hl hs).standsOn hl.valid hv).isHost

/-- An address of a network is stood on, or jumped over by a round that leaves an exclude. -/
theorem Canonical.stands_or_jumped (hl : l.Canonical) {n : CIDRAddress} (hn : n ∈ l.networks)
    (hc : n.contains z = true) (hz : z.IsHost) (hlast : z.key ≤ l.lastAddress.key) :
    l.Stands z ∨ ∃ x, l.Stands x ∧ l.Excluded x ∧ x.key < z.key ∧
      z.key ≤ (l.skipToExcludeEnd x).key := by
  obtain ⟨hproto, hfirst⟩ := hl.first_le hn hc hz
  have hvz := (valid_of_contains hc).2
  have hon : l.OnWalk (l, .invalid) := Or.inl rfl
  obtain ⟨t, ht, hot, hx, rfl | ⟨hlt, hinv | hover⟩⟩ := hon.stands_or_jumps hl.valid hz hvz hproto
    hfirst hlast (key_pos hvz)
  · exact Or.inl ⟨hx, t, ht, rfl⟩
  · exact absurd ⟨_, ((hot.standsOn hl.valid hx).gap_of_invalid hl.valid hx hinv).1⟩ hl.no_gap
  · right
    have hexc := hl.excluded_of_jump (hot.standsOn hl.valid hx).isHost hx hn hc hz hlt hover
    rw [land_of_excluded hexc] at hover
    exact ⟨standing t, ⟨hx, t, ht, rfl⟩, hexc, hlt, hover⟩

theorem SkipsOnto.not_stands (hl : l.Canonical) (h : l.SkipsOnto z) : ¬ l.Stands z := by
  obtain ⟨x, hx, hexc, hlt, hkey⟩ := h
  apply hl.not_stands_of_jump hx hlt
  rw [land_of_excluded hexc, hkey]

theorem Yields.stands_iff (hl : l.Canonical) (hz : l.Yields z) :
    l.Stands z ↔ ¬ l.SkipsOnto z := by
  have hbest := (isBest_network hz.kept.1).1
  refine ⟨fun hstands hskip ↦ hskip.not_stands hl hstands, fun hskip ↦ ?_⟩
  have hlast : z.key ≤ l.lastAddress.key :=
    not_lt.mp fun h ↦ by simpa [hz.not_after] using gt_iff.mpr h
  rcases hl.stands_or_jumped hbest.mem hbest.contains hz.isHost hlast with
    hstands | ⟨x, hx, hexc, hlt, hover⟩
  · exact hstands
  · have hover' : z.key ≤ (l.land x).key := by rwa [land_of_excluded hexc]
    have hkey := (hl.start_of_jump (hx.isHost hl) hx.1 hz.isHost hz.kept hlt hover').2
    exact absurd ⟨x, hx, hexc, hlt, hkey⟩ hskip

theorem Stands.yields (hl : l.Canonical) (hx : l.Stands x) (hkept : l.Kept x)
    (hres : l.reserved x = false) : l.Yields x := by
  obtain ⟨hv, s, hs, rfl⟩ := hx
  have hso := (onWalk_reaches hl hs).standsOn hl.valid hv
  refine ⟨hso.isHost, hkept, hres, Bool.eq_false_iff.mpr fun hgt ↦ ?_⟩
  have hafter := gt_iff.mp hgt
  -- only the first address is not compared with the last one
  have hfirst := hso.le_last.resolve_right (by omega)
  have hbest := (isBest_network hkept.1).1
  have hin := (contains_host_iff hbest.valid hv hso.isHost).mp hbest.contains
  obtain ⟨n, hn, heq, hmin⟩ := firstAddress_spec (List.ne_nil_of_mem hbest.mem) hl.valid
  have hlow := hmin _ hbest.mem
  have hlo := hl.loKey _ hbest.mem
  have hkey : (standing s).key = n.key := by rw [hfirst, heq, key_host (hl.valid n hn)]
  have hnot : ¬ (l.bestNetworkFor (standing s)).prefixLen < 31 := by
    intro hlt
    rw [(hl.reserved_iff hso.isHost hkept.1).mpr ⟨hlt, by omega⟩] at hres
    simp at hres
  have := hl.le_last hbest.mem hin.2 (fun h ↦ absurd h hnot)
  omega

/-- The walk over an IPv4 list produces what the filter lets through, less what it skips onto. -/
theorem mem_walk_iff_yields {xs : List CIDRAddress} (hl : l.Canonical) (h : l.Walk xs) :
    z ∈ xs ↔ l.Yields z ∧ ¬ l.SkipsOnto z := by
  rw [mem_walk_iff hl h]
  constructor
  · rintro ⟨hstands, hkept, hres⟩
    have hy := hstands.yields hl hkept hres
    exact ⟨hy, (hy.stands_iff hl).mp hstands⟩
  · rintro ⟨hy, hskip⟩
    exact ⟨(hy.stands_iff hl).mpr hskip, hy.kept, hy.not_reserved⟩

/-! ## What the walk should produce -/

section

variable {calls : List (ListCall Ipv4Net)}

theorem prefixLen_exclude_le (hscope : ¬ l.OutOfScope z) :
    l.bestExcludePrefixFor z ≤ l.bestNetworkPrefixFor z ↔
      ∀ e ∈ l.excludedNetworks, e.contains z = true →
        e.prefixLen ≤ l.bestNetworkPrefixFor z := by
  have hnet := isBest_network hscope
  have hpos := prefixLen_nonneg hnet.1.valid
  unfold bestExcludePrefixFor bestExcludeFor
  rcases bestPrefix_spec l.excludedNetworks z with ⟨hp, hnone⟩ | ⟨-, hbest, hp⟩
  · rw [hp]
    refine iff_of_true (by omega) ?_
    intro e he hc
    rw [hnone e he] at hc
    simp at hc
  · rw [hp]
    constructor
    · intro hle e he hc
      exact (hbest.longest e he hc).trans hle
    · intro h
      exact h _ hbest.mem hbest.contains

theorem prefixLen_exclude_lt (hscope : ¬ l.OutOfScope z) :
    l.bestExcludePrefixFor z < l.bestNetworkPrefixFor z ↔
      ∀ e ∈ l.excludedNetworks, e.contains z = true →
        e.prefixLen < l.bestNetworkPrefixFor z := by
  have hnet := isBest_network hscope
  have hpos := prefixLen_nonneg hnet.1.valid
  unfold bestExcludePrefixFor bestExcludeFor
  rcases bestPrefix_spec l.excludedNetworks z with ⟨hp, hnone⟩ | ⟨-, hbest, hp⟩
  · rw [hp]
    refine iff_of_true (by omega) ?_
    intro e he hc
    rw [hnone e he] at hc
    simp at hc
  · rw [hp]
    constructor
    · intro hlt e he hc
      exact (hbest.longest e he hc).trans_lt hlt
    · intro h
      exact h _ hbest.mem hbest.contains

/-- The longest network around an address, in the terms of the code. -/
theorem isBest_filled4 {n : Ipv4Net} (hn : .add n ∈ calls)
    (hc : n.net.contains z = true)
    (hlong : ∀ m : Ipv4Net, .add m ∈ calls → m.net.contains z = true →
      m.net.prefixLen ≤ n.net.prefixLen) :
    ¬ (filled4 calls).OutOfScope z ∧
      (filled4 calls).bestNetworkPrefixFor z = n.net.prefixLen ∧
      ((filled4 calls).bestNetworkFor z).key = n.net.key ∧
      ((filled4 calls).bestNetworkFor z).hiKey = n.net.hiKey := by
  have hmem : n.net ∈ (filled4 calls).networks := mem_networks_filled4.mpr ⟨n, hn, rfl⟩
  have hscope : ¬ (filled4 calls).OutOfScope z := by
    intro hout
    rw [outOfScope_iff.mp hout _ hmem] at hc
    simp at hc
  obtain ⟨hbest, hp⟩ := isBest_network hscope
  have hle := hbest.longest _ hmem hc
  obtain ⟨m, hm, heq⟩ := mem_networks_filled4.mp hbest.mem
  have hge := hlong m hm (heq ▸ hbest.contains)
  rw [heq] at hge
  have h₁ := nested hc hbest.contains (by omega)
  have h₂ := nested hbest.contains hc (by omega)
  have hlo := (canonical_filled4 calls).loKey _ hbest.mem
  have hlo' := n.loKey_eq
  refine ⟨hscope, by omega, by omega, by omega⟩

theorem inScope_iff : InScope calls z ↔ z.IsHost ∧ ¬ (filled4 calls).OutOfScope z ∧
    (filled4 calls).bestExcludePrefixFor z < (filled4 calls).bestNetworkPrefixFor z ∧
    (((filled4 calls).bestNetworkFor z).prefixLen < 31 →
      z.key ≠ ((filled4 calls).bestNetworkFor z).key ∧
        z.key ≠ ((filled4 calls).bestNetworkFor z).hiKey) := by
  -- the addresses of the claim are host addresses, so equal means equal keys
  have hends : ∀ n : Ipv4Net, z.IsHost → z.valid = true →
      ((z ≠ n.net.network.host ∧ z ≠ n.net.broadcast.host) ↔
        z.key ≠ n.net.key ∧ z.key ≠ n.net.hiKey) := by
    intro n hz hv
    rw [n.written, ne_eq, ne_eq, eq_host_iff hz hv n.valid,
      eq_host_iff hz hv (valid_broadcast n.valid), key_broadcast n.valid]
  constructor
  · rintro ⟨hz, n, hn, hc, hlong, hexc, hedge⟩
    have hv := (valid_of_contains hc).2
    obtain ⟨hscope, hp, hlo, hhi⟩ := isBest_filled4 hn hc hlong
    refine ⟨hz, hscope, (prefixLen_exclude_lt hscope).mpr ?_, ?_⟩
    · intro e he hec
      obtain ⟨m, hm, rfl⟩ := mem_excludes_filled4.mp he
      rw [hp]
      exact hexc m hm hec
    · rw [← (isBest_network hscope).2, hp, hlo, hhi]
      exact fun h ↦ (hends n hz hv).mp (hedge h)
  · rintro ⟨hz, hscope, hlt, hedge⟩
    obtain ⟨hbest, hp⟩ := isBest_network hscope
    have hv := (valid_of_contains hbest.contains).2
    obtain ⟨n, hn, heq⟩ := mem_networks_filled4.mp hbest.mem
    rw [← heq] at hbest hp hedge
    refine ⟨hz, n, hn, hbest.contains, ?_, ?_, fun h ↦ (hends n hz hv).mpr (hedge h)⟩
    · intro m hm hmc
      exact hbest.longest _ (mem_networks_filled4.mpr ⟨m, hm, rfl⟩) hmc
    · intro e he hec
      rw [← hp]
      exact (prefixLen_exclude_lt hscope).mp hlt _ (mem_excludes_filled4.mpr ⟨e, he, rfl⟩) hec

/-- What is in scope passes the filter. -/
theorem yields_of_inScope (h : InScope calls z) : (filled4 calls).Yields z := by
  obtain ⟨hz, hscope, hlt, hedge⟩ := inScope_iff.mp h
  have hl := canonical_filled4 calls
  have hbest := (isBest_network hscope).1
  have hin := (contains_host_iff hbest.valid (valid_of_contains hbest.contains).2 hz).mp
    hbest.contains
  refine ⟨hz, ⟨hscope, hlt.le⟩, Bool.eq_false_iff.mpr fun hres ↦ ?_,
    Bool.eq_false_iff.mpr fun hgt ↦ ?_⟩
  · obtain ⟨hshort, hkey⟩ := (hl.reserved_iff hz hscope).mp hres
    exact (hedge hshort).1 hkey
  · have := hl.le_last hbest.mem hin.2 (fun h ↦ (hedge h).2)
    have := gt_iff.mp hgt
    omega

end

end CIDRList

end FtyRest.Shared
