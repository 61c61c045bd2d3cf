import FtyRest.Shared.CidrLost

/-!
# What `next` produces

The iteration over an IPv4 list against the addresses that are in scope, and against the one over
a list that was filled in another order.
-/

namespace FtyRest.Shared

open CIDRAddress

/-- Networks of one length around one address are the same. -/
theorem Ipv4Net.eq_of_contains {n m : Ipv4Net} {a : CIDRAddress} (hn : n.net.contains a = true)
    (hm : m.net.contains a = true) (hlen : n.net.prefixLen = m.net.prefixLen) : n = m := by
  have hle := nested hn hm hlen.le
  have hge := nested hm hn hlen.ge
  have hkey : n.net.key = m.net.key := by
    have := n.loKey_eq
    have := m.loKey_eq
    omega
  have hnet : n.net = m.net := eq_of_key_prefixLen n.protocol m.protocol hkey hlen
  cases n
  cases m
  cases hnet
  rfl

namespace CIDRList

/-- `next` lets the address `a` of the network `n` through: no other network and no exclude around
it is longer, it is not the network's own address, and it is not behind the last host. -/
structure Admits (calls : List (ListCall Ipv4Net)) (n : Ipv4Net) (a : CIDRAddress) : Prop where
  added : .add n ∈ calls
  isHost : a.IsHost
  contains : n.net.contains a = true
  longest : ∀ m : Ipv4Net, .add m ∈ calls → m.net.contains a = true →
    m.net.prefixLen ≤ n.net.prefixLen
  exclude : ∀ e : Ipv4Net, .exclude e ∈ calls → e.net.contains a = true →
    e.net.prefixLen ≤ n.net.prefixLen
  not_network : n.net.prefixLen < 31 → a ≠ n.net.host
  reached : ∃ m : Ipv4Net, .add m ∈ calls ∧ a.key ≤ m.net.hostMax.key

/-- What is let through although it should not be: an address whose network is excluded as well,
and the broadcast. -/
def Slips (calls : List (ListCall Ipv4Net)) (n : Ipv4Net) (a : CIDRAddress) : Prop :=
  .exclude n ∈ calls ∨ n.net.prefixLen < 31 ∧ a = n.net.broadcast.host

section

variable {calls : List (ListCall Ipv4Net)} {n : Ipv4Net} {a z : CIDRAddress}

/-- The filter of `next`, on the networks and the excludes. -/
theorem yields_iff : (filled4 calls).Yields a ↔ ∃ n, Admits calls n a := by
  have hl := canonical_filled4 calls
  constructor
  · intro h
    -- the network is the best one, and the last address is reached by some network
    obtain ⟨hbest, hp⟩ := isBest_network h.kept.1
    have hva := (valid_of_contains hbest.contains).2
    obtain ⟨n, hn, heq⟩ := mem_networks_filled4.mp hbest.mem
    obtain ⟨m, hm, hlast, -⟩ := lastAddress_spec (List.ne_nil_of_mem hbest.mem)
    obtain ⟨k, hk, rfl⟩ := mem_networks_filled4.mp hm
    refine ⟨n, hn, h.isHost, heq ▸ hbest.contains, fun m hm hc ↦ ?_, fun e he hc ↦ ?_,
      fun hshort hstart ↦ ?_, k, hk, ?_⟩
    · rw [heq]
      exact hbest.longest _ (mem_networks_filled4.mpr ⟨m, hm, rfl⟩) hc
    · rw [heq]
      exact h.kept.exclude_le (mem_excludes_filled4.mpr ⟨e, he, rfl⟩) hc
    · have hkey := (eq_host_iff h.isHost hva n.valid).mp hstart
      rw [heq] at hkey hshort
      have hres := (hl.reserved_iff h.isHost h.kept.1).mpr ⟨hshort, hkey⟩
      rw [h.not_reserved] at hres
      cases hres
    · rw [← hlast]
      exact not_lt.mp fun hlt ↦ by simpa [h.not_after] using gt_iff.mpr hlt
  · rintro ⟨n, h⟩
    obtain ⟨hscope, hp, hlo, -⟩ := isBest_filled4 h.added h.contains h.longest
    obtain ⟨hbest, hp'⟩ := isBest_network hscope
    have hva := (valid_of_contains h.contains).2
    refine ⟨h.isHost, ⟨hscope, ?_⟩, Bool.eq_false_iff.mpr fun hres ↦ ?_,
      Bool.eq_false_iff.mpr fun hgt ↦ ?_⟩
    · rw [prefixLen_exclude_le hscope]
      intro e he hc
      obtain ⟨m, hm, rfl⟩ := mem_excludes_filled4.mp he
      rw [hp]
      exact h.exclude m hm hc
    · obtain ⟨hshort, hkey⟩ := (hl.reserved_iff h.isHost hscope).mp hres
      refine h.not_network (by omega) ((eq_host_iff h.isHost hva n.valid).mpr (by omega))
    · -- `lastAddress` is the highest of the last addresses of the networks
      obtain ⟨m, hm, hle⟩ := h.reached
      have hmem := mem_networks_filled4.mpr ⟨m, hm, rfl⟩
      obtain ⟨k, hk, hlast, hmax⟩ := lastAddress_spec (List.ne_nil_of_mem hmem)
      have hge := hmax _ hmem
      have hlt := gt_iff.mp hgt
      rw [hlast] at hlt
      omega

/-- What is let through is in scope, but for the slips. -/
theorem Admits.inScope_iff (h : Admits calls n a) : InScope calls a ↔ ¬ Slips calls n a := by
  constructor
  · rintro ⟨-, m, hm, hc, hlong, hexc, hedge⟩ hslip
    have hle := h.longest m hm hc
    have hge := hlong n h.added h.contains
    obtain rfl := Ipv4Net.eq_of_contains h.contains hc (by omega)
    rcases hslip with hn | ⟨hshort, hb⟩
    · exact absurd (hexc n hn h.contains) (lt_irrefl _)
    · exact (hedge hshort).2 hb
  · intro hslip
    refine ⟨h.isHost, n, h.added, h.contains, h.longest, fun e he hc ↦ ?_, fun hshort ↦ ?_⟩
    · refine lt_of_le_of_ne (h.exclude e he hc) fun hlen ↦ hslip (Or.inl ?_)
      rwa [← Ipv4Net.eq_of_contains hc h.contains hlen]
    · rw [n.written]
      exact ⟨h.not_network hshort, fun hb ↦ hslip (Or.inr ⟨hshort, hb⟩)⟩

/-- What is let through and lost is the start of its network. -/
theorem Admits.host_eq_of_lost (h : Admits calls n a) (hlost : (filled4 calls).Lost a) :
    n.net.host = a := by
  obtain ⟨_, hm, hstart⟩ := hlost.start
  obtain ⟨m, hadded, rfl⟩ := mem_networks_filled4.mp hm
  have hva := (valid_of_contains h.contains).2
  have hin := (contains_host_iff n.valid hva h.isHost).mp h.contains
  have hkey : a.key = m.net.key := by rw [← hstart, key_host m.valid]
  have hc : m.net.contains a = true := by
    rw [contains_host_iff m.valid hva h.isHost, hkey]
    exact ⟨loKey_le_key m.valid, key_le_hiKey m.valid⟩
  have hnest := nested hc h.contains (h.longest m hadded hc)
  have hlo := n.loKey_eq
  have hlo' := m.loKey_eq
  exact ((eq_host_iff h.isHost hva n.valid).mpr (by omega)).symm

/-- The walk over a list, on its networks and excludes. -/
theorem mem_walk_filled4 {xs : List CIDRAddress} (h : (filled4 calls).Walk xs) :
    a ∈ xs ↔ (∃ n, Admits calls n a) ∧ ¬ (filled4 calls).Lost a := by
  rw [mem_walk_iff_not_lost (canonical_filled4 calls) h, yields_iff]

/-- `next` produces only addresses in scope, but for two slips: an exclude as long as the network
does not hide it, and the broadcast is compared together with its prefix. -/
theorem next_inScope_iff (calls : List (ListCall Ipv4Net)) :
    (∀ xs, (filled4 calls).Walk xs → ∀ a ∈ xs, InScope calls a) ↔
      ∀ n a, Admits calls n a → Slips calls n a → (filled4 calls).Lost a := by
  have hl := canonical_filled4 calls
  constructor
  · intro h n a hadm hslip
    by_contra hlost
    obtain ⟨xs, hxs, -⟩ := walk_of_no_gap hl.valid hl.no_gap
    have hmem := (mem_walk_filled4 hxs).mpr ⟨⟨n, hadm⟩, hlost⟩
    exact hadm.inScope_iff.mp (h xs hxs a hmem) hslip
  · intro h xs hxs a ha
    obtain ⟨⟨n, hadm⟩, hlost⟩ := (mem_walk_filled4 hxs).mp ha
    exact hadm.inScope_iff.mpr fun hslip ↦ hlost (h n a hadm hslip)

/-- `10.0.0.21/32`, added and excluded, is produced; so is the broadcast of `10.0.0.20/30` when
another network follows. -/
theorem next_not_inScope :
    (∃ xs, (filled4 [.add (.of 0x0A000015 32), .exclude (.of 0x0A000015 32)]).Walk xs ∧
      ∃ a ∈ xs, ¬ InScope [.add (.of 0x0A000015 32), .exclude (.of 0x0A000015 32)] a) ∧
    ∃ xs, (filled4 [.add (.of 0x0A000014 30), .add (.of 0x0A000018 32)]).Walk xs ∧
      ∃ a ∈ xs, ¬ InScope [.add (.of 0x0A000014 30), .add (.of 0x0A000018 32)] a := by
  constructor
  · refine ⟨[ipv4 0x0A000015], walk_of_drain 2 (by decide +kernel),
      ipv4 0x0A000015, by simp, fun h ↦ ?_⟩
    exact absurd (inScope_iff.mp h).2.2.1 (by decide +kernel)
  · refine ⟨[ipv4 0x0A000015, ipv4 0x0A000016, ipv4 0x0A000017, ipv4 0x0A000018],
      walk_of_drain 6 (by decide +kernel), ipv4 0x0A000017, by simp, fun h ↦ ?_⟩
    exact absurd (inScope_iff.mp h).2.2.2 (by decide +kernel)

/-- The walk goes up, and misses an address in scope exactly when a network that starts with such
an address is lost. -/
theorem next_complete_iff (calls : List (ListCall Ipv4Net)) :
    ∃ xs, (filled4 calls).Walk xs ∧ xs.Pairwise (fun a b ↦ a.lt b = true) ∧
      ((∀ a, InScope calls a → a ∈ xs) ↔
        ∀ n, Admits calls n n.net.host → .exclude n ∉ calls →
          ¬ (filled4 calls).Lost n.net.host) := by
  have hl := canonical_filled4 calls
  obtain ⟨xs, hxs, hsorted⟩ := walk_of_no_gap hl.valid hl.no_gap
  refine ⟨xs, hxs, hsorted, ?_⟩
  constructor
  · intro hall n hadm hexc hlost
    have hscope : InScope calls n.net.host := by
      rw [hadm.inScope_iff]
      rintro (hn | ⟨hshort, -⟩)
      · exact hexc hn
      · exact hadm.not_network hshort rfl
    exact ((mem_walk_filled4 hxs).mp (hall _ hscope)).2 hlost
  · intro hnone a ha
    obtain ⟨n, hadm⟩ := yields_iff.mp (yields_of_inScope ha)
    refine (mem_walk_filled4 hxs).mpr ⟨⟨n, hadm⟩, fun hlost ↦ ?_⟩
    obtain rfl := hadm.host_eq_of_lost hlost
    exact hnone n hadm (fun hn ↦ hadm.inScope_iff.mp ha (Or.inl hn)) hlost

/-- `10.0.0.21` is added on its own, but it is where the round that stands on the excluded
`10.0.0.20` lands. -/
theorem next_not_complete :
    ∃ xs, (filled4 [.add (.of 0x0A000014 30), .exclude (.of 0x0A000014 31),
        .add (.of 0x0A000015 32)]).Walk xs ∧
      InScope [.add (.of 0x0A000014 30), .exclude (.of 0x0A000014 31), .add (.of 0x0A000015 32)]
        (ipv4 0x0A000015) ∧ ipv4 0x0A000015 ∉ xs := by
  refine ⟨[ipv4 0x0A000016], walk_of_drain 5 (by decide +kernel), ?_, by decide +kernel⟩
  exact inScope_iff.mpr ⟨isHost_single _ _, by decide +kernel, by decide +kernel,
    by decide +kernel⟩

/-! ## The order of the calls -/

/-- An increasing sequence is known by its members. -/
theorem eq_of_sorted_mem {xs ys : List CIDRAddress}
    (hxs : xs.Pairwise (fun a b ↦ a.lt b = true)) (hys : ys.Pairwise (fun a b ↦ a.lt b = true))
    (hmem : ∀ z, z ∈ xs ↔ z ∈ ys) : xs = ys := by
  have : Std.Irrefl (fun a b : CIDRAddress ↦ a.lt b = true) :=
    ⟨fun a h ↦ lt_irrefl _ (lt_iff.mp h)⟩
  have : Std.Antisymm (fun a b : CIDRAddress ↦ a.lt b = true) :=
    ⟨fun a b h h' ↦ absurd (lt_iff.mp h') (lt_iff.mp h).asymm⟩
  exact hxs.eq_of_mem_iff hys hmem

theorem Admits.congr {calls' : List (ListCall Ipv4Net)}
    (hsame : ∀ call, call ∈ calls ↔ call ∈ calls') (h : Admits calls n a) :
    Admits calls' n a := by
  obtain ⟨m, hm, hle⟩ := h.reached
  exact {
    added := (hsame _).mp h.added
    isHost := h.isHost
    contains := h.contains
    longest := fun m hm ↦ h.longest m ((hsame _).mpr hm)
    exclude := fun e he ↦ h.exclude e ((hsame _).mpr he)
    not_network := h.not_network
    reached := ⟨m, (hsame _).mp hm, hle⟩ }

/-- Lists filled in another order search alike.  They walk alike when the same ones of the networks
that start with an address that is let through are lost. -/
theorem order_independent_iff {calls calls' : List (ListCall Ipv4Net)}
    (hsame : ∀ call, call ∈ calls ↔ call ∈ calls') :
    (∀ a, (filled4 calls).bestNetworkPrefixFor a = (filled4 calls').bestNetworkPrefixFor a ∧
      (filled4 calls).bestExcludePrefixFor a = (filled4 calls').bestExcludePrefixFor a) ∧
    ((∃ xs, (filled4 calls).Walk xs ∧ (filled4 calls').Walk xs) ↔
      ∀ n, Admits calls n n.net.host →
        ((filled4 calls).Lost n.net.host ↔ (filled4 calls').Lost n.net.host)) := by
  have hl := canonical_filled4 calls
  have hl' := canonical_filled4 calls'
  have hnets : ∀ n, n ∈ (filled4 calls).networks ↔ n ∈ (filled4 calls').networks := by
    intro n
    simp only [mem_networks_filled4, hsame]
  have hexcl : ∀ n, n ∈ (filled4 calls).excludedNetworks ↔
      n ∈ (filled4 calls').excludedNetworks := by
    intro n
    simp only [mem_excludes_filled4, hsame]
  refine ⟨fun a ↦ ⟨bestPrefix_congr hnets a, bestPrefix_congr hexcl a⟩, ?_⟩
  have hadmits : ∀ n a, Admits calls n a ↔ Admits calls' n a := by
    intro n a
    exact ⟨fun h ↦ h.congr hsame, fun h ↦ h.congr fun call ↦ (hsame call).symm⟩
  constructor
  · rintro ⟨xs, hxs, hxs'⟩ n hn
    have hmem := mem_walk_filled4 (a := n.net.host) hxs
    have hmem' := mem_walk_filled4 (a := n.net.host) hxs'
    rw [and_iff_right ⟨n, hn⟩] at hmem
    rw [and_iff_right ⟨n, (hadmits n _).mp hn⟩] at hmem'
    exact not_iff_not.mp (hmem.symm.trans hmem')
  · intro hlost
    obtain ⟨xs, hxs, hsorted⟩ := walk_of_no_gap hl.valid hl.no_gap
    obtain ⟨ys, hys, hsorted'⟩ := walk_of_no_gap hl'.valid hl'.no_gap
    have hmem : ∀ a, a ∈ xs ↔ a ∈ ys := by
      intro a
      rw [mem_walk_filled4 hxs, mem_walk_filled4 hys]
      simp only [← hadmits]
      apply and_congr_right
      rintro ⟨n, hn⟩
      rw [not_iff_not]
      -- what may be lost is the start of its network
      constructor
      · intro h
        obtain rfl := hn.host_eq_of_lost h
        exact (hlost n hn).mp h
      · intro h
        obtain rfl := ((hadmits n a).mp hn).host_eq_of_lost h
        exact (hlost n hn).mpr h
    exact ⟨xs, hxs, eq_of_sorted_mem hsorted hsorted' hmem ▸ hys⟩

theorem order_independent_iff_swap :
    (∀ a, (filled4 [.exclude (.of 0x0A000014 30), .add (.of 0x0A000010 29),
          .add (.of 0x0A000016 32)]).bestNetworkPrefixFor a =
        (filled4 [.add (.of 0x0A000010 29), .exclude (.of 0x0A000014 30),
          .add (.of 0x0A000016 32)]).bestNetworkPrefixFor a ∧
      (filled4 [.exclude (.of 0x0A000014 30), .add (.of 0x0A000010 29),
          .add (.of 0x0A000016 32)]).bestExcludePrefixFor a =
        (filled4 [.add (.of 0x0A000010 29), .exclude (.of 0x0A000014 30),
          .add (.of 0x0A000016 32)]).bestExcludePrefixFor a) ∧
    ((∃ xs, (filled4 [.exclude (.of 0x0A000014 30), .add (.of 0x0A000010 29),
          .add (.of 0x0A000016 32)]).Walk xs ∧
        (filled4 [.add (.of 0x0A000010 29), .exclude (.of 0x0A000014 30),
          .add (.of 0x0A000016 32)]).Walk xs) ↔
      ∀ n, Admits [.exclude (.of 0x0A000014 30), .add (.of 0x0A000010 29),
          .add (.of 0x0A000016 32)] n n.net.host →
        ((filled4 [.exclude (.of 0x0A000014 30), .add (.of 0x0A000010 29),
            .add (.of 0x0A000016 32)]).Lost n.net.host ↔
          (filled4 [.add (.of 0x0A000010 29), .exclude (.of 0x0A000014 30),
            .add (.of 0x0A000016 32)]).Lost n.net.host)) :=
  order_independent_iff fun _ ↦ (List.Perm.swap _ _ _).mem_iff

/-- Two hosts inside an exclude: the walk over the first list leaves the exclude at `10.0.0.21`,
as the start of the second host is compared with a candidate already stepped back. -/
theorem order_matters :
    (∀ call, call ∈ [ListCall.add (Ipv4Net.of 0x0A000010 29), .exclude (.of 0x0A000014 30),
        .add (.of 0x0A000016 32), .add (.of 0x0A000015 32)] ↔
      call ∈ [ListCall.add (Ipv4Net.of 0x0A000010 29), .exclude (.of 0x0A000014 30),
        .add (.of 0x0A000015 32), .add (.of 0x0A000016 32)]) ∧
    ∃ xs ys, (filled4 [.add (.of 0x0A000010 29), .exclude (.of 0x0A000014 30),
        .add (.of 0x0A000016 32), .add (.of 0x0A000015 32)]).Walk xs ∧
      (filled4 [.add (.of 0x0A000010 29), .exclude (.of 0x0A000014 30),
        .add (.of 0x0A000015 32), .add (.of 0x0A000016 32)]).Walk ys ∧ xs ≠ ys := by
  refine ⟨by simp only [List.mem_cons, List.not_mem_nil, or_false]; tauto,
    [ipv4 0x0A000011, ipv4 0x0A000012, ipv4 0x0A000013, ipv4 0x0A000016],
    [ipv4 0x0A000011, ipv4 0x0A000012, ipv4 0x0A000013, ipv4 0x0A000015, ipv4 0x0A000016],
    walk_of_drain 9 (by decide +kernel), walk_of_drain 9 (by decide +kernel),
    by simp⟩

end

end CIDRList

end FtyRest.Shared
