import FtyRest.Shared.Cidr

/-!
# Stepping and comparing addresses

`operator++`, `operator--` and `compare` of `shared/cidr.cc`, each of which works byte by byte, read
as the successor, the predecessor and the order of numbers.
-/

namespace FtyRest.Shared.CIDRAddress

variable {a b : CIDRAddress}

/-! ## The order -/

theorem compare_le_zero : compare a b ≤ 0 ↔ a.key ≤ b.key := by
  rw [compare_eq]
  split
  · omega
  · split <;> omega

theorem compare_eq_zero : compare a b = 0 ↔ a.key = b.key := by
  rw [compare_eq]
  split
  · omega
  · split <;> omega

theorem compare_neg (a b : CIDRAddress) : compare a b = - compare b a := by
  rw [compare_eq a b, compare_eq b a]
  rcases Nat.lt_trichotomy a.key b.key with h | h | h
  · rw [if_pos h, if_neg (by omega), if_pos h]
  · rw [if_neg (by omega), if_neg (by omega), if_neg (by omega), if_neg (by omega)]
    rfl
  · rw [if_neg (by omega), if_pos h, if_pos h]
    rfl

/-- Valid addresses have the same place only with the same protocol and address. -/
theorem key_eq_iff {c d : Cidr} (hc : c.addr ≠ 0) (hd : d.addr ≠ 0) :
    key ⟨some c⟩ = key ⟨some d⟩ ↔ c.proto = d.proto ∧ c.addr = d.addr := by
  have hclt := c.addr_lt
  have hdlt := d.addr_lt
  rw [key_mk c hc, key_mk d hd]
  -- the keys of IPv6 begin behind those of IPv4
  cases hcp : c.proto <;> cases hdp : d.proto <;>
    simp only [hcp, hdp, Proto.bits, Proto.base, reduceCtorEq, false_and, iff_false, true_and,
      Nat.zero_add, Nat.add_left_cancel_iff] at * <;>
    omega

theorem compare_eq_zero_iff : compare a b = 0 ↔ a.valid = false ∧ b.valid = false ∨
    ∃ c d, a = ⟨some c⟩ ∧ b = ⟨some d⟩ ∧ c.proto = d.proto ∧ c.addr = d.addr := by
  rw [compare_eq_zero]
  constructor
  · intro hkey
    cases ha : a.valid with
    | false => exact .inl ⟨rfl, key_eq_zero_iff.mp (hkey ▸ key_eq_zero_iff.mpr ha)⟩
    | true =>
      have hb : b.valid = true := valid_iff_key.mpr (hkey ▸ valid_iff_key.mp ha)
      obtain ⟨c, rfl, hc⟩ := valid_iff.mp ha
      obtain ⟨d, rfl, hd⟩ := valid_iff.mp hb
      exact .inr ⟨c, d, rfl, rfl, (key_eq_iff hc hd).mp hkey⟩
  · rintro (⟨ha, hb⟩ | ⟨c, d, rfl, rfl, hproto, haddr⟩)
    · rw [key_eq_zero_iff.mpr ha, key_eq_zero_iff.mpr hb]
    · unfold key
      simp only [hproto, haddr]

theorem compare_of_not_valid (ha : a.valid = false) (hb : b.valid = true) : compare a b = -1 := by
  rw [compare_eq, if_pos]
  rw [key_eq_zero_iff.mpr ha]
  exact key_pos hb

theorem compare_of_protocol (ha : a.protocol = 4) (hb : b.protocol = 6) : compare a b = -1 := by
  rw [compare_eq, if_pos]
  exact (protocol_four_iff.mp ha).2.trans (protocol_six_iff.mp hb)

theorem compare_of_proto_eq {c d : Cidr} (hc : c.addr ≠ 0) (hd : d.addr ≠ 0)
    (h : c.proto = d.proto) : compare ⟨some c⟩ ⟨some d⟩ ≤ 0 ↔ c.addr ≤ d.addr := by
  rw [compare_le_zero, key_mk c hc, key_mk d hd, h, Nat.add_le_add_iff_left]

/-- The order of the addresses: invalid ones, then IPv4, then IPv6, each protocol by the number;
prefixes do not count. -/
theorem compare_isTotalPreorder (a b c : CIDRAddress) :
    compare a b = - compare b a ∧
    (compare a b ≤ 0 → compare b c ≤ 0 → compare a c ≤ 0) ∧
    (compare a b ≤ 0 ∨ compare b a ≤ 0) ∧
    (compare a b = 0 ↔ a.valid = false ∧ b.valid = false ∨
      ∃ x y, a = ⟨some x⟩ ∧ b = ⟨some y⟩ ∧ x.proto = y.proto ∧ x.addr = y.addr) ∧
    (a.valid = false → b.valid = true → compare a b = -1) ∧
    (a.protocol = 4 → b.protocol = 6 → compare a b = -1) ∧
    (∀ x y, a = ⟨some x⟩ → b = ⟨some y⟩ → a.valid = true → b.valid = true → x.proto = y.proto →
      (compare a b ≤ 0 ↔ x.addr ≤ y.addr)) ∧
    (a.lt b = true ↔ compare a b ≤ 0 ∧ ¬ compare b a ≤ 0) ∧
    (a.gt b = true ↔ compare b a ≤ 0 ∧ ¬ compare a b ≤ 0) := by
  refine ⟨compare_neg a b, ?_, ?_, compare_eq_zero_iff, compare_of_not_valid, compare_of_protocol,
    ?_, ?_, ?_⟩
  · simp only [compare_le_zero]
    exact Nat.le_trans
  · simp only [compare_le_zero]
    exact Nat.le_total _ _
  · rintro x y rfl rfl hx hy hproto
    exact compare_of_proto_eq ((valid_mk x).mp hx) ((valid_mk y).mp hy) hproto
  · rw [lt_iff, compare_le_zero, compare_le_zero]
    omega
  · rw [gt_iff, compare_le_zero, compare_le_zero]
    omega

/-! ## Steps -/

theorem preInc_of_not_valid (h : a.valid = false) : a.preInc = a := by
  obtain ⟨_ | c⟩ := a
  · rfl
  · exact if_neg (by rw [h]; decide)

theorem preDec_of_not_valid (h : a.valid = false) : a.preDec = a := by
  obtain ⟨_ | c⟩ := a
  · rfl
  · exact if_neg (by rw [h]; decide)

theorem valid_single {p : Proto} {n : Nat} :
    (⟨some (.single p n)⟩ : CIDRAddress).valid = true ↔ n % 2 ^ p.bits ≠ 0 := valid_mk _

/-- What comes before the address that comes after, unless that is the zero address. -/
theorem preDec_preInc {c : Cidr} (hc : c.addr ≠ 0) (hv : (preInc ⟨some c⟩).valid = true) :
    preDec (preInc ⟨some c⟩) = ⟨some (.single c.proto c.addr)⟩ := by
  have hlt := c.addr_lt
  rw [preInc_eq c hc] at hv ⊢
  have hne := valid_single.mp hv
  -- the last address of the protocol steps to zero, which is not valid
  have hsmall : c.addr + 1 < 2 ^ c.proto.bits := by
    by_contra hbig
    rw [show c.addr + 1 = 2 ^ c.proto.bits by omega, Nat.mod_self] at hne
    exact hne rfl
  rw [preDec_eq _ hne]
  show (⟨some (.single c.proto ((c.addr + 1) % 2 ^ c.proto.bits - 1))⟩ : CIDRAddress) = _
  rw [Nat.mod_eq_of_lt hsmall, Nat.add_sub_cancel]

theorem preInc_preDec {c : Cidr} (hc : c.addr ≠ 0) (hv : (preDec ⟨some c⟩).valid = true) :
    preInc (preDec ⟨some c⟩) = ⟨some (.single c.proto c.addr)⟩ := by
  have hlt := c.addr_lt
  rw [preDec_eq c hc] at hv ⊢
  have hne := valid_single.mp hv
  rw [preInc_eq _ hne]
  show (⟨some (.single c.proto ((c.addr - 1) % 2 ^ c.proto.bits + 1))⟩ : CIDRAddress) = _
  rw [Nat.mod_eq_of_lt (by omega), Nat.sub_add_cancel (by omega)]

theorem valid_preInc_iff {c : Cidr} (hc : c.addr ≠ 0) :
    (preInc ⟨some c⟩).valid = true ↔ c.addr + 1 ≠ 2 ^ c.proto.bits := by
  have hlt := c.addr_lt
  rw [preInc_eq c hc, valid_single]
  constructor
  · intro hne heq
    rw [heq, Nat.mod_self] at hne
    exact hne rfl
  · intro hne
    rw [Nat.mod_eq_of_lt (by omega)]
    omega

theorem gt_preInc {c : Cidr} (hc : c.addr ≠ 0) (hv : (preInc ⟨some c⟩).valid = true) :
    (preInc ⟨some c⟩).gt ⟨some c⟩ = true := by
  rw [gt_iff]
  rcases key_preInc ((valid_mk c).mpr hc) with hkey | ⟨hkey, -⟩
  · omega
  · exact absurd hkey (valid_iff_key.mp hv)

theorem lt_preDec {c : Cidr} (hc : c.addr ≠ 0) : (preDec ⟨some c⟩).lt ⟨some c⟩ = true := by
  have hlt := c.addr_lt
  rw [lt_iff, preDec_eq c hc, key_single, Nat.mod_eq_of_lt (by omega), key_mk c hc]
  split <;> omega

/-- Stepping is the successor and the predecessor on the numbers of a protocol.  The result is a
host, so that a step back leads to the host address. -/
theorem step_successor (a : CIDRAddress) :
    (a.valid = false → a.preInc = a ∧ a.preDec = a) ∧
    ∀ c, a = ⟨some c⟩ → a.valid = true →
      a.preInc = ⟨some (.single c.proto (c.addr + 1))⟩ ∧
      a.preDec = ⟨some (.single c.proto (c.addr - 1))⟩ ∧
      (a.preInc.valid = true → a.preInc.preDec = a.host ∧ a.preInc.gt a = true) ∧
      (a.preInc.valid = false → c.addr + 1 = 2 ^ c.proto.bits) ∧
      (a.preDec.valid = true → a.preDec.preInc = a.host) ∧
      a.preDec.lt a = true ∧
      a.host = ⟨some (.single c.proto c.addr)⟩ ∧
      (c.pflen = c.proto.bits → a.host = a) := by
  constructor
  · intro h
    exact ⟨preInc_of_not_valid h, preDec_of_not_valid h⟩
  · rintro c rfl h
    have hc := (valid_mk c).mp h
    have hhost := host_eq c hc
    refine ⟨preInc_eq c hc, preDec_eq c hc, ?_, ?_, ?_, lt_preDec hc, hhost, ?_⟩
    · intro hv
      rw [hhost]
      exact ⟨preDec_preInc hc hv, gt_preInc hc hv⟩
    · intro hv
      by_contra hne
      rw [(valid_preInc_iff hc).mpr hne] at hv
      cases hv
    · intro hv
      rw [hhost]
      exact preInc_preDec hc hv
    · intro hlen
      exact eq_of_key_eq (isHost_host h) ⟨c, rfl, hlen⟩ (valid_host h) (key_host h)

/-- From `10.0.0.5/24` the way back ends at `10.0.0.5/32`. -/
theorem network_is_left :
    (⟨some ⟨.ipv4, 167772165, 24, by decide, by decide⟩⟩ : CIDRAddress).preInc.valid = true ∧
    (⟨some ⟨.ipv4, 167772165, 24, by decide, by decide⟩⟩ : CIDRAddress).preInc.preDec ≠
      ⟨some ⟨.ipv4, 167772165, 24, by decide, by decide⟩⟩ :=
  ⟨by decide, by decide⟩

end FtyRest.Shared.CIDRAddress
