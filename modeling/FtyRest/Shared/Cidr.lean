import FtyRest.Lib.BigEndian
import FtyRest.Lib.PrefixBlock

/-!
# `CIDRAddress`

The address class of `shared/cidr.cc`.  libcidr is modelled by what the class uses of it: a CIDR
is a protocol, an address and a prefix length, the address being read and written in network
order.  The class keeps a pointer to one, which is null in a fresh object.
-/

namespace FtyRest.Shared

open BigEndian PrefixBlock

/-! ## libcidr -/

inductive Proto where
  | ipv4
  | ipv6
deriving DecidableEq, Repr

def Proto.bytes : Proto → Nat
  | .ipv4 => 4
  | .ipv6 => 16

def Proto.bits : Proto → Nat
  | .ipv4 => 32
  | .ipv6 => 128

/-- Where the addresses of the protocol start when IPv4 and IPv6 are put in one row. -/
def Proto.base : Proto → Nat
  | .ipv4 => 0
  | .ipv6 => 2 ^ 32

theorem Proto.pow_bytes (p : Proto) : 256 ^ p.bytes = 2 ^ p.bits := by
  cases p <;> norm_num [Proto.bytes, Proto.bits]

structure Cidr where
  proto : Proto
  addr : Nat
  pflen : Nat
  addr_lt : addr < 2 ^ proto.bits
  pflen_le : pflen ≤ proto.bits
deriving DecidableEq

namespace Cidr

/-- The number of bits that the prefix leaves free. -/
def hostBits (c : Cidr) : Nat := c.proto.bits - c.pflen

/-- A single address. -/
def single (p : Proto) (n : Nat) : Cidr where
  proto := p
  addr := n % 2 ^ p.bits
  pflen := p.bits
  addr_lt := Nat.mod_lt _ (Nat.two_pow_pos _)
  pflen_le := le_rfl

end Cidr

/-- `cidr_to_inaddr` and `cidr_to_in6addr`. -/
def cidrToInaddr (c : Cidr) : List UInt8 := toBytes c.proto.bytes c.addr

/-- `cidr_from_inaddr` and `cidr_from_in6addr`. -/
def cidrFromInaddr (p : Proto) (inaddr : List UInt8) : Cidr := .single p (ofBytes inaddr)

/-- `cidr_contains (big, little) == 0`. -/
def cidrContains (big little : Cidr) : Bool :=
  big.proto = little.proto ∧ big.pflen ≤ little.pflen ∧ Same big.hostBits little.addr big.addr

/-- `cidr_equals (a, b) == 0`. -/
def cidrEquals (a b : Cidr) : Bool := a.proto = b.proto ∧ a.addr = b.addr ∧ a.pflen = b.pflen

def cidrAddrNetwork (c : Cidr) : Cidr :=
  { c with
    addr := lo c.hostBits c.addr
    addr_lt := (lo_le _ _).trans_lt c.addr_lt }

def cidrAddrBroadcast (c : Cidr) : Cidr :=
  { c with
    addr := hi c.hostBits c.addr
    addr_lt := hi_lt c.addr_lt (Nat.sub_le _ _) }

/-- The highest host of a network, with the same exception. -/
def cidrAddrHostmax (c : Cidr) : Cidr :=
  if c.hostBits ≤ 1 then cidrAddrBroadcast c
  else
    { c with
      addr := hi c.hostBits c.addr - 1
      addr_lt := (Nat.sub_le _ _).trans_lt (hi_lt c.addr_lt (Nat.sub_le _ _)) }

/-! ## The class -/

structure CIDRAddress where
  cidr : Option Cidr := none
deriving DecidableEq

namespace CIDRAddress

/-- The fresh object, which is what `invalidate` leaves too. -/
def invalid : CIDRAddress := {}

/-- Neither null nor the address `0.0.0.0` or `::`. -/
def valid (a : CIDRAddress) : Bool :=
  match a.cidr with
  | none => false
  | some c => (cidrToInaddr c).any (· ≠ 0)

def protocol (a : CIDRAddress) : Nat :=
  match a.cidr with
  | some ⟨.ipv4, _, _, _, _⟩ => if a.valid then 4 else 0
  | some ⟨.ipv6, _, _, _, _⟩ => if a.valid then 6 else 0
  | none => 0

/-- `prefix()`, `-1` for an invalid address. -/
def prefixLen (a : CIDRAddress) : Int :=
  match a.cidr with
  | some c => if a.valid then c.pflen else -1
  | none => -1

/-- `operator++`: the result is a host, whatever the prefix was. -/
def preInc (a : CIDRAddress) : CIDRAddress :=
  match a.cidr with
  | some c => if a.valid then ⟨some (cidrFromInaddr c.proto (inc (cidrToInaddr c)))⟩ else a
  | none => a

/-- `operator--`. -/
def preDec (a : CIDRAddress) : CIDRAddress :=
  match a.cidr with
  | some c => if a.valid then ⟨some (cidrFromInaddr c.proto (dec (cidrToInaddr c)))⟩ else a
  | none => a

def contains (a address : CIDRAddress) : Bool :=
  match a.cidr, address.cidr with
  | some c, some d => a.valid && address.valid && cidrContains c d
  | _, _ => false

/-- `equals`, which is `operator==`: the prefixes are compared as well. -/
def equals (a address : CIDRAddress) : Bool :=
  if !a.valid && !address.valid then true
  else
    match a.cidr, address.cidr with
    | some c, some d => a.valid && address.valid && cidrEquals d c
    | _, _ => false

/-- The accessors that derive one address from another; nothing comes of an invalid one. -/
def derived (f : Cidr → Cidr) (a : CIDRAddress) : CIDRAddress :=
  match a.cidr with
  | some c => if a.valid then ⟨some (f c)⟩ else invalid
  | none => invalid

def hostMax (a : CIDRAddress) : CIDRAddress := derived cidrAddrHostmax a

def host (a : CIDRAddress) : CIDRAddress :=
  derived (fun c ↦ cidrFromInaddr c.proto (cidrToInaddr c)) a

def network (a : CIDRAddress) : CIDRAddress := derived cidrAddrNetwork a

def broadcast (a : CIDRAddress) : CIDRAddress := derived cidrAddrBroadcast a

/-- `+1` if the first is bigger, `-1` if it is smaller; prefixes do not count. -/
def compare (a a2 : CIDRAddress) : Int :=
  if !a.valid && !a2.valid then 0
  else if !a.valid || !a2.valid then
    if a.valid then 1 else -1
  else
    match a.cidr, a2.cidr with
    | some c, some c2 =>
        match c.proto, c2.proto with
        | .ipv4, .ipv4 => cmp (cidrToInaddr c) (cidrToInaddr c2)
        | .ipv6, .ipv6 => cmp (cidrToInaddr c) (cidrToInaddr c2)
        | .ipv6, .ipv4 => 1
        | .ipv4, .ipv6 => -1
    | _, _ => 0

/-- `operator>` -/
def gt (a a2 : CIDRAddress) : Bool := compare a a2 = 1

/-- `operator<` -/
def lt (a a2 : CIDRAddress) : Bool := compare a a2 = -1

/-! ## Reading an address as a number -/

/-- The place of an address in the order of `compare`: the invalid ones at `0`, then IPv4, then
IPv6. -/
def key (a : CIDRAddress) : Nat :=
  match a.cidr with
  | none => 0
  | some c => if c.addr = 0 then 0 else c.proto.base + c.addr

/-- The place of the lowest address of a network. -/
def loKey (a : CIDRAddress) : Nat :=
  match a.cidr with
  | none => 0
  | some c => c.proto.base + lo c.hostBits c.addr

/-- The place of the highest address of a network. -/
def hiKey (a : CIDRAddress) : Nat :=
  match a.cidr with
  | none => 0
  | some c => c.proto.base + hi c.hostBits c.addr

end CIDRAddress

theorem ofBytes_cidrToInaddr (c : Cidr) : ofBytes (cidrToInaddr c) = c.addr := by
  rw [cidrToInaddr, ofBytes_toBytes, Proto.pow_bytes, Nat.mod_eq_of_lt c.addr_lt]

theorem length_cidrToInaddr (c : Cidr) : (cidrToInaddr c).length = c.proto.bytes :=
  length_toBytes _ _

theorem cidrFromInaddr_inc (c : Cidr) :
    cidrFromInaddr c.proto (inc (cidrToInaddr c)) = .single c.proto (c.addr + 1) := by
  unfold cidrFromInaddr Cidr.single
  simp only [ofBytes_inc, ofBytes_cidrToInaddr, length_cidrToInaddr, Proto.pow_bytes, Nat.mod_mod]

theorem cidrFromInaddr_dec (c : Cidr) (hc : c.addr ≠ 0) :
    cidrFromInaddr c.proto (dec (cidrToInaddr c)) = .single c.proto (c.addr - 1) := by
  have hlt := c.addr_lt
  unfold cidrFromInaddr Cidr.single
  simp only [ofBytes_dec, ofBytes_cidrToInaddr, length_cidrToInaddr, Proto.pow_bytes, Nat.mod_mod]
  congr 1
  rw [show c.addr + (2 ^ c.proto.bits - 1) = (c.addr - 1) + 2 ^ c.proto.bits by omega,
    Nat.add_mod_right]

theorem cidrFromInaddr_self (c : Cidr) :
    cidrFromInaddr c.proto (cidrToInaddr c) = .single c.proto c.addr := by
  rw [cidrFromInaddr, ofBytes_cidrToInaddr]

namespace CIDRAddress

variable {a b x : CIDRAddress}

@[simp] theorem valid_invalid : invalid.valid = false := rfl

@[simp] theorem key_invalid : invalid.key = 0 := rfl

theorem valid_mk (c : Cidr) : (⟨some c⟩ : CIDRAddress).valid = true ↔ c.addr ≠ 0 := by
  unfold valid
  rw [any_ne_zero_iff, ofBytes_cidrToInaddr]

theorem valid_iff : a.valid = true ↔ ∃ c, a = ⟨some c⟩ ∧ c.addr ≠ 0 := by
  obtain ⟨_ | c⟩ := a
  · simp [valid]
  · rw [valid_mk]
    simp

theorem key_mk (c : Cidr) (hc : c.addr ≠ 0) : key ⟨some c⟩ = c.proto.base + c.addr := by
  simp [key, hc]

theorem key_single (p : Proto) (n : Nat) : key ⟨some (.single p n)⟩ =
    if n % 2 ^ p.bits = 0 then 0 else p.base + n % 2 ^ p.bits := rfl

theorem valid_iff_key : a.valid = true ↔ a.key ≠ 0 := by
  obtain ⟨_ | c⟩ := a
  · simp [valid, key]
  · rw [valid_mk]
    unfold key
    simp only [ne_eq, ite_eq_left_iff, Classical.not_imp]
    omega

theorem key_eq_zero_iff : a.key = 0 ↔ a.valid = false := by
  rw [← Bool.not_eq_true, valid_iff_key, not_not]

theorem key_pos (h : a.valid = true) : 0 < a.key := Nat.pos_of_ne_zero (valid_iff_key.mp h)

/-- The comparison is the one of the keys. -/
theorem compare_eq (a b : CIDRAddress) :
    compare a b = if a.key < b.key then -1 else if a.key > b.key then 1 else 0 := by
  unfold compare
  cases ha : a.valid with
  | false =>
    have hka := key_eq_zero_iff.mpr ha
    cases hb : b.valid with
    | false => simp [hka, key_eq_zero_iff.mpr hb]
    | true => simp [hka, key_pos hb]
  | true =>
    have hka := key_pos ha
    cases hb : b.valid with
    | false => simp [key_eq_zero_iff.mpr hb, hka]
    | true =>
      obtain ⟨c, rfl, hc⟩ := valid_iff.mp ha
      obtain ⟨d, rfl, hd⟩ := valid_iff.mp hb
      have hclt := c.addr_lt
      have hdlt := d.addr_lt
      -- of two addresses of one protocol the bytes have one length, so they compare as numbers
      have hcmp (hp : c.proto = d.proto) := cmp_eq (cidrToInaddr c) (cidrToInaddr d)
        (by rw [length_cidrToInaddr, length_cidrToInaddr, hp])
      simp only [ofBytes_cidrToInaddr] at hcmp
      rw [key_mk c hc, key_mk d hd]
      cases hcp : c.proto <;> cases hdp : d.proto <;>
        simp only [hcp, hdp, Proto.bits, Proto.base, Nat.zero_add, reduceCtorEq,
          IsEmpty.forall_iff, forall_const] at * <;>
        simp only [hcmp, Bool.not_true, Bool.and_self, Bool.or_self, Bool.false_eq_true,
          if_false, Nat.add_lt_add_iff_left, gt_iff_lt]
      · -- the base of IPv6 is above every IPv4 address
        rw [if_pos (by omega)]
      · rw [if_neg (by omega), if_pos (by omega)]

theorem lt_iff : a.lt b = true ↔ a.key < b.key := by
  simp only [lt, compare_eq, decide_eq_true_eq]
  split
  · simp [*]
  · split <;> simp_all

theorem gt_iff : a.gt b = true ↔ b.key < a.key := by
  simp only [gt, compare_eq, decide_eq_true_eq]
  split
  · rename_i h
    simp [h.le]
  · split <;> simp_all

/-! ### The two protocols -/

theorem protocol_mk (c : Cidr) (hc : c.addr ≠ 0) :
    protocol ⟨some c⟩ = match c.proto with
      | .ipv4 => 4
      | .ipv6 => 6 := by
  have hv := (valid_mk c).mpr hc
  obtain ⟨p, n, l, hn, hl⟩ := c
  cases p <;> simp [protocol, hv]

theorem protocol_of_valid (h : a.valid = true) : a.protocol = 4 ∨ a.protocol = 6 := by
  obtain ⟨c, rfl, hc⟩ := valid_iff.mp h
  rw [protocol_mk c hc]
  cases c.proto <;> simp

theorem protocol_eq_iff (c d : Cidr) (hc : c.addr ≠ 0) (hd : d.addr ≠ 0) :
    protocol ⟨some c⟩ = protocol ⟨some d⟩ ↔ c.proto = d.proto := by
  rw [protocol_mk c hc, protocol_mk d hd]
  cases c.proto <;> cases d.proto <;> simp

theorem protocol_of_not_valid (h : a.valid = false) : a.protocol = 0 := by
  obtain ⟨_ | ⟨p, n, l, hn, hl⟩⟩ := a
  · rfl
  · cases p <;> simp [protocol, h]

theorem protocol_four_iff : a.protocol = 4 ↔ a.valid = true ∧ a.key < 2 ^ 32 := by
  cases hv : a.valid with
  | false => simp [protocol_of_not_valid hv]
  | true =>
    obtain ⟨c, rfl, hc⟩ := valid_iff.mp hv
    have hlt := c.addr_lt
    rw [protocol_mk c hc, key_mk c hc]
    cases hp : c.proto <;> simp [hp, Proto.bits, Proto.base] at *
    omega

theorem protocol_six_iff : a.protocol = 6 ↔ 2 ^ 32 < a.key := by
  cases hv : a.valid with
  | false => simp [protocol_of_not_valid hv, key_eq_zero_iff.mpr hv]
  | true =>
    obtain ⟨c, rfl, hc⟩ := valid_iff.mp hv
    have hlt := c.addr_lt
    rw [protocol_mk c hc, key_mk c hc]
    cases hp : c.proto <;> simp [hp, Proto.bits, Proto.base] at * <;> omega

theorem key_lt (a : CIDRAddress) : a.key < 2 ^ 32 + 2 ^ 128 := by
  cases hv : a.valid with
  | false =>
    rw [key_eq_zero_iff.mpr hv]
    norm_num
  | true =>
    obtain ⟨c, rfl, hc⟩ := valid_iff.mp hv
    have hlt := c.addr_lt
    rw [key_mk c hc]
    cases hp : c.proto <;> simp only [hp, Proto.bits, Proto.base] at * <;> omega

/-! ### Derived addresses -/

/-- A single address, which is what the walk over a list steps through. -/
def IsHost (a : CIDRAddress) : Prop := ∃ c, a = ⟨some c⟩ ∧ c.pflen = c.proto.bits

/-- The IPv4 address with this number. -/
def ipv4 (n : Nat) : CIDRAddress := ⟨some (.single .ipv4 n)⟩

theorem isHost_single (p : Proto) (n : Nat) : IsHost ⟨some (.single p n)⟩ := ⟨_, rfl, rfl⟩

theorem eq_of_key_eq (ha : a.IsHost) (hb : b.IsHost) (hv : a.valid = true)
    (hk : a.key = b.key) : a = b := by
  have hvb : b.valid = true := valid_iff_key.mpr (hk ▸ valid_iff_key.mp hv)
  obtain ⟨⟨p, n, l, hn, hl⟩, rfl, hpl⟩ := ha
  obtain ⟨⟨q, m, k, hm, hk'⟩, rfl, hqk⟩ := hb
  rw [key_mk _ ((valid_mk _).mp hv), key_mk _ ((valid_mk _).mp hvb)] at hk
  simp only at hpl hqk hk
  subst hpl hqk
  -- the ranges of the two protocols do not meet
  cases p <;> cases q <;> simp only [Proto.bits, Proto.base] at hn hm hk
  · obtain rfl : n = m := by omega
    rfl
  · omega
  · omega
  · obtain rfl : n = m := by omega
    rfl

theorem host_eq (c : Cidr) (hc : c.addr ≠ 0) :
    host ⟨some c⟩ = ⟨some (.single c.proto c.addr)⟩ := by
  simp [host, derived, (valid_mk c).mpr hc, cidrFromInaddr_self]

theorem key_host (h : a.valid = true) : a.host.key = a.key := by
  obtain ⟨c, rfl, hc⟩ := valid_iff.mp h
  rw [host_eq c hc, key_single, Nat.mod_eq_of_lt c.addr_lt, if_neg hc, key_mk c hc]

theorem isHost_host (h : a.valid = true) : a.host.IsHost := by
  obtain ⟨c, rfl, hc⟩ := valid_iff.mp h
  rw [host_eq c hc]
  exact isHost_single _ _

theorem valid_host (h : a.valid = true) : a.host.valid = true := by
  rw [valid_iff_key, key_host h]
  exact valid_iff_key.mp h

theorem eq_host_iff (hx : x.IsHost) (hv : x.valid = true) (ha : a.valid = true) :
    x = a.host ↔ x.key = a.key := by
  rw [← key_host ha]
  exact ⟨congrArg key, eq_of_key_eq hx (isHost_host ha) hv⟩

theorem preInc_eq (c : Cidr) (hc : c.addr ≠ 0) :
    preInc ⟨some c⟩ = ⟨some (.single c.proto (c.addr + 1))⟩ := by
  simp [preInc, (valid_mk c).mpr hc, cidrFromInaddr_inc]

theorem isHost_preInc (h : a.valid = true) : a.preInc.IsHost := by
  obtain ⟨c, rfl, hc⟩ := valid_iff.mp h
  rw [preInc_eq c hc]
  exact isHost_single _ _

/-- `operator++` is the successor, but for the last address of a protocol, which wraps. -/
theorem key_preInc (h : a.valid = true) :
    a.preInc.key = a.key + 1 ∨
      a.preInc.key = 0 ∧ (a.key + 1 = 2 ^ 32 ∨ a.key + 1 = 2 ^ 32 + 2 ^ 128) := by
  obtain ⟨c, rfl, hc⟩ := valid_iff.mp h
  have hlt := c.addr_lt
  rw [preInc_eq c hc, key_single, key_mk c hc]
  rcases Nat.lt_or_ge (c.addr + 1) (2 ^ c.proto.bits) with hsmall | hbig
  · left
    rw [Nat.mod_eq_of_lt hsmall, if_neg (by omega), Nat.add_assoc]
  · right
    -- the last address wraps to zero, which is not a valid one
    have hwrap : c.addr + 1 = 2 ^ c.proto.bits := by omega
    refine ⟨by rw [hwrap, Nat.mod_self, if_pos rfl], ?_⟩
    cases hp : c.proto <;> simp only [hp, Proto.bits, Proto.base] at * <;> omega

theorem preDec_eq (c : Cidr) (hc : c.addr ≠ 0) :
    preDec ⟨some c⟩ = ⟨some (.single c.proto (c.addr - 1))⟩ := by
  simp [preDec, (valid_mk c).mpr hc, cidrFromInaddr_dec c hc]

/-- `operator--` is the predecessor of an address that is not the lowest of its protocol. -/
theorem key_preDec (hb : b.valid = true) (hp : b.protocol = a.protocol) (hlt : b.key < a.key) :
    a.preDec.key + 1 = a.key := by
  have ha : a.valid = true := valid_iff_key.mpr (by omega)
  obtain ⟨c, rfl, hc⟩ := valid_iff.mp ha
  obtain ⟨d, rfl, hd⟩ := valid_iff.mp hb
  -- there is a lower address of the same protocol, so nothing wraps
  have hproto := (protocol_eq_iff d c hd hc).mp hp
  have hclt := c.addr_lt
  rw [key_mk c hc, key_mk d hd, hproto, Nat.add_lt_add_iff_left] at hlt
  rw [preDec_eq c hc, key_single, key_mk c hc, Nat.mod_eq_of_lt (by omega), if_neg (by omega)]
  omega

/-! ### Networks as intervals of keys -/

theorem loKey_le_key (h : a.valid = true) : a.loKey ≤ a.key := by
  obtain ⟨c, rfl, hc⟩ := valid_iff.mp h
  rw [key_mk c hc]
  exact Nat.add_le_add_left (lo_le _ _) _

theorem key_le_hiKey (h : a.valid = true) : a.key ≤ a.hiKey := by
  obtain ⟨c, rfl, hc⟩ := valid_iff.mp h
  rw [key_mk c hc]
  exact Nat.add_le_add_left (le_hi _ _) _

theorem broadcast_eq (c : Cidr) (hc : c.addr ≠ 0) :
    broadcast ⟨some c⟩ = ⟨some (cidrAddrBroadcast c)⟩ := by
  simp [broadcast, derived, (valid_mk c).mpr hc]

theorem addr_broadcast_ne_zero {c : Cidr} (hc : c.addr ≠ 0) : (cidrAddrBroadcast c).addr ≠ 0 := by
  have hle : c.addr ≤ (cidrAddrBroadcast c).addr := le_hi _ _
  omega

theorem key_broadcast (h : a.valid = true) : a.broadcast.key = a.hiKey := by
  obtain ⟨c, rfl, hc⟩ := valid_iff.mp h
  rw [broadcast_eq c hc, key_mk _ (addr_broadcast_ne_zero hc)]
  rfl

theorem valid_broadcast (h : a.valid = true) : a.broadcast.valid = true := by
  obtain ⟨c, rfl, hc⟩ := valid_iff.mp h
  rw [broadcast_eq c hc, valid_mk]
  exact addr_broadcast_ne_zero hc

theorem protocol_broadcast (h : a.valid = true) : a.broadcast.protocol = a.protocol := by
  obtain ⟨c, rfl, hc⟩ := valid_iff.mp h
  rw [broadcast_eq c hc, protocol_eq_iff _ _ (addr_broadcast_ne_zero hc) hc]
  rfl

theorem prefixLen_eq (c : Cidr) (hc : c.addr ≠ 0) : prefixLen ⟨some c⟩ = c.pflen := by
  simp [prefixLen, (valid_mk c).mpr hc]

theorem prefixLen_nonneg (h : a.valid = true) : 0 ≤ a.prefixLen := by
  obtain ⟨c, rfl, hc⟩ := valid_iff.mp h
  rw [prefixLen_eq c hc]
  exact Int.natCast_nonneg _

/-- An IPv4 network is known by its address and its prefix. -/
theorem eq_of_key_prefixLen (ha : a.protocol = 4) (hb : b.protocol = 4) (hk : a.key = b.key)
    (hlen : a.prefixLen = b.prefixLen) : a = b := by
  obtain ⟨hva, hka⟩ := protocol_four_iff.mp ha
  obtain ⟨hvb, hkb⟩ := protocol_four_iff.mp hb
  obtain ⟨⟨p, n, l, hn, hl⟩, rfl, hc⟩ := valid_iff.mp hva
  obtain ⟨⟨q, m, k, hm, hk'⟩, rfl, hd⟩ := valid_iff.mp hvb
  rw [prefixLen_eq _ hc, prefixLen_eq _ hd] at hlen
  obtain rfl : l = k := Int.ofNat.inj hlen
  rw [key_mk _ hc] at hk hka
  rw [key_mk _ hd] at hk hkb
  cases p <;> cases q <;> simp only [Proto.base] at hk hka hkb
  · obtain rfl : n = m := by omega
    rfl
  all_goals omega

theorem prefixLen_broadcast (h : a.valid = true) : a.broadcast.prefixLen = a.prefixLen := by
  obtain ⟨c, rfl, hc⟩ := valid_iff.mp h
  rw [broadcast_eq c hc, prefixLen_eq c hc, prefixLen_eq _ (addr_broadcast_ne_zero hc)]
  rfl

theorem prefixLen_isHost (ha : a.IsHost) (h4 : a.protocol = 4) : a.prefixLen = 32 := by
  have hv := (protocol_four_iff.mp h4).1
  obtain ⟨c, rfl, hpl⟩ := ha
  have hc := (valid_mk c).mp hv
  rw [protocol_mk c hc] at h4
  rw [prefixLen_eq c hc, hpl]
  cases hp : c.proto <;> simp [hp, Proto.bits] at h4 ⊢

theorem hostMax_eq (c : Cidr) (hc : c.addr ≠ 0) :
    hostMax ⟨some c⟩ = ⟨some (cidrAddrHostmax c)⟩ := by
  simp [hostMax, derived, (valid_mk c).mpr hc]

theorem key_hostMax_le (h : a.valid = true) : a.hostMax.key ≤ a.hiKey := by
  obtain ⟨c, rfl, hc⟩ := valid_iff.mp h
  rw [hostMax_eq c hc]
  unfold key hiKey
  simp only [cidrAddrHostmax]
  split
  · simp only [cidrAddrBroadcast]
    by_cases h0 : hi c.hostBits c.addr = 0 <;> simp [h0]
  · by_cases h0 : hi c.hostBits c.addr - 1 = 0 <;> simp [h0]

/-- A network of more than two addresses. -/
theorem loKey_lt_hiKey (h4 : a.protocol = 4) (h : a.prefixLen < 31) : a.loKey < a.hiKey := by
  have hv := (protocol_four_iff.mp h4).1
  obtain ⟨c, rfl, hc⟩ := valid_iff.mp hv
  have hp : c.proto = .ipv4 := by
    rw [protocol_mk c hc] at h4
    cases hp : c.proto <;> simp [hp] at h4 ⊢
  rw [prefixLen_eq c hc] at h
  have hbits : 1 < c.hostBits := by
    simp only [Cidr.hostBits, hp, Proto.bits]
    omega
  have hpow : 1 < 2 ^ c.hostBits := Nat.one_lt_two_pow (by omega)
  unfold loKey hiKey lo hi
  dsimp only
  omega

/-- The last host of an IPv4 network is its last address, or the one before it. -/
theorem key_hostMax_four (h4 : a.protocol = 4) :
    a.hiKey ≤ a.hostMax.key + (if a.prefixLen < 31 then 1 else 0) := by
  have hv := (protocol_four_iff.mp h4).1
  obtain ⟨c, rfl, hc⟩ := valid_iff.mp hv
  have hp : c.proto = .ipv4 := by
    rw [protocol_mk c hc] at h4
    cases hp : c.proto <;> simp [hp] at h4 ⊢
  have hbits : c.hostBits = 32 - c.pflen := by simp [Cidr.hostBits, hp, Proto.bits]
  rw [prefixLen_eq c hc, hostMax_eq c hc]
  unfold key hiKey cidrAddrHostmax
  -- a network of one or two addresses has no broadcast of its own
  by_cases hle : c.hostBits ≤ 1
  · simp only [if_pos hle, cidrAddrBroadcast, hp, Proto.base, Nat.zero_add]
    by_cases h0 : hi c.hostBits c.addr = 0 <;> simp [h0]
  · have hlt : (c.pflen : Int) < 31 := by omega
    simp only [if_neg hle, if_pos hlt, hp, Proto.base, Nat.zero_add]
    by_cases h0 : hi c.hostBits c.addr - 1 = 0
    · simp only [h0, if_true]
      omega
    · simp only [if_neg h0]
      omega

theorem contains_iff (c d : Cidr) : contains ⟨some c⟩ ⟨some d⟩ = true ↔
    c.addr ≠ 0 ∧ d.addr ≠ 0 ∧ c.proto = d.proto ∧ c.pflen ≤ d.pflen ∧
      Same c.hostBits d.addr c.addr := by
  simp only [contains, Bool.and_eq_true, valid_mk, cidrContains, decide_eq_true_eq, and_assoc]

theorem valid_of_contains (h : a.contains b = true) : a.valid = true ∧ b.valid = true := by
  obtain ⟨_ | c⟩ := a
  · simp [contains] at h
  · obtain ⟨_ | d⟩ := b
    · simp [contains] at h
    · obtain ⟨hc, hd, -⟩ := (contains_iff c d).mp h
      exact ⟨(valid_mk c).mpr hc, (valid_mk d).mpr hd⟩

theorem equals_iff (ha : a.valid = true) (hb : b.valid = true) : a.equals b = true ↔ a = b := by
  obtain ⟨c, rfl, hc⟩ := valid_iff.mp ha
  obtain ⟨d, rfl, hd⟩ := valid_iff.mp hb
  obtain ⟨p, n, l, hn, hl⟩ := c
  obtain ⟨q, m, k, hm, hk⟩ := d
  simp only [equals, ha, hb, Bool.not_true, Bool.and_self, Bool.false_eq_true, if_false,
    Bool.true_and, cidrEquals, decide_eq_true_eq, mk.injEq, Option.some.injEq, Cidr.mk.injEq]
  tauto

/-- A network contains the single addresses of its interval. -/
theorem contains_host_iff (ha : a.valid = true) (hb : b.valid = true) (hh : b.IsHost) :
    a.contains b = true ↔ a.loKey ≤ b.key ∧ b.key ≤ a.hiKey := by
  obtain ⟨c, rfl, hc⟩ := valid_iff.mp ha
  obtain ⟨d, rfl, hdl⟩ := hh
  have hd := (valid_mk d).mp hb
  have hclt : hi c.hostBits c.addr < _ := hi_lt c.addr_lt (Nat.sub_le c.proto.bits c.pflen)
  have hdlt := d.addr_lt
  have hcl := c.pflen_le
  rw [contains_iff, same_iff, key_mk d hd]
  unfold loKey hiKey
  cases hcp : c.proto <;> cases hdp : d.proto <;>
    simp only [hcp, hdp, Proto.bits, Proto.base, reduceCtorEq, false_and, and_false, ne_eq,
      false_iff, true_and] at * <;> omega

theorem protocol_of_contains (h : a.contains b = true) : a.protocol = b.protocol := by
  obtain ⟨ha, hb⟩ := valid_of_contains h
  obtain ⟨c, rfl, hc⟩ := valid_iff.mp ha
  obtain ⟨d, rfl, hd⟩ := valid_iff.mp hb
  exact (protocol_eq_iff c d hc hd).mpr ((contains_iff c d).mp h).2.2.1

/-- Of two networks that share an address, the one with the shorter prefix takes in the other. -/
theorem nested (ha : a.contains x = true) (hb : b.contains x = true)
    (hle : a.prefixLen ≤ b.prefixLen) : a.loKey ≤ b.loKey ∧ b.hiKey ≤ a.hiKey := by
  obtain ⟨hva, hvx⟩ := valid_of_contains ha
  obtain ⟨hvb, -⟩ := valid_of_contains hb
  obtain ⟨c, rfl, hc⟩ := valid_iff.mp hva
  obtain ⟨d, rfl, hd⟩ := valid_iff.mp hvb
  obtain ⟨e, rfl, he⟩ := valid_iff.mp hvx
  obtain ⟨-, -, hce, -, hsc⟩ := (contains_iff _ _).mp ha
  obtain ⟨-, -, hde, -, hsd⟩ := (contains_iff _ _).mp hb
  rw [prefixLen_eq c hc, prefixLen_eq d hd, Int.ofNat_le] at hle
  have hbits : d.hostBits ≤ c.hostBits := by
    unfold Cidr.hostBits
    rw [hce, hde]
    omega
  -- the two agree above the free bits of the wider one
  have hsame : Same c.hostBits d.addr c.addr := (hsd.mono hbits).symm.trans hsc
  have hlo := lo_le_lo hbits d.addr
  have hhi := hi_le_hi hbits d.addr
  rw [hsame.lo_eq] at hlo
  rw [hsame.hi_eq] at hhi
  unfold loKey hiKey
  simp only [hce, hde]
  omega

end CIDRAddress

end FtyRest.Shared
