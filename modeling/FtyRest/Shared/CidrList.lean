import FtyRest.Lib.DoWhile
import FtyRest.Lib.Select
import FtyRest.Shared.Cidr

/-!
# `CIDRList`

The list of included and excluded networks of `shared/cidr.cc`, the iteration `next` over it, and
one specification lemma for each of its loops over the networks.
-/

namespace FtyRest.Shared

open CIDRAddress

structure CIDRList where
  networks : List CIDRAddress := []
  excludedNetworks : List CIDRAddress := []
  last : CIDRAddress := {}
deriving DecidableEq

/-- `add` and `exclude` do this to one vector or the other. -/
def pushNew (nets : List CIDRAddress) (net : CIDRAddress) : Bool × List CIDRAddress :=
  if !net.valid then (false, nets)
  else if nets.any (·.equals net) then (false, nets)
  else (true, nets ++ [net])

/-- `bestNetworkFor` and `bestExcludeFor` are this loop, over one vector or the other. -/
def bestFor (nets : List CIDRAddress) (address : CIDRAddress) : CIDRAddress :=
  (nets.foldl (fun best n ↦
    if n.contains address ∧ n.prefixLen > best.1 then (n.prefixLen, n) else best)
    ((-1 : Int), CIDRAddress.invalid)).2

/-- One network of the loop of `_skipToNextPool`. -/
def poolStep (address selected n : CIDRAddress) : CIDRAddress :=
  -- we should not walk trough ipv6
  if n.gt address && n.protocol == 4 then
    if selected.valid then
      if n.lt selected then n.host else selected
    else n.host
  else selected

/-- One network of the loop of `_skipToExcludeEnd`. -/
def excludeStep (address excludeEnd selected n : CIDRAddress) : CIDRAddress :=
  if n.gt address && n.lt excludeEnd then
    if selected.valid then
      if n.lt selected then n.host.preDec else selected
    else n.host.preDec
  else selected

namespace CIDRList

def add (l : CIDRList) (net : CIDRAddress) : Bool × CIDRList :=
  let (done, networks) := pushNew l.networks net
  (done, { l with networks })

def exclude (l : CIDRList) (net : CIDRAddress) : Bool × CIDRList :=
  let (done, excludedNetworks) := pushNew l.excludedNetworks net
  (done, { l with excludedNetworks })

def firstAddress (l : CIDRList) : CIDRAddress :=
  match l.networks with
  | [] => .invalid
  | n :: ns => ns.foldl (fun result n ↦ if n.host.lt result then n.host else result) n.host

def lastAddress (l : CIDRList) : CIDRAddress :=
  match l.networks with
  | [] => .invalid
  | n :: ns => ns.foldl (fun result n ↦ if n.hostMax.gt result then n.hostMax else result) n.hostMax

def bestNetworkFor (l : CIDRList) (address : CIDRAddress) : CIDRAddress :=
  bestFor l.networks address

def bestNetworkPrefixFor (l : CIDRList) (address : CIDRAddress) : Int :=
  if (l.bestNetworkFor address).valid then (l.bestNetworkFor address).prefixLen else -1

def bestExcludeFor (l : CIDRList) (address : CIDRAddress) : CIDRAddress :=
  bestFor l.excludedNetworks address

def bestExcludePrefixFor (l : CIDRList) (address : CIDRAddress) : Int :=
  if (l.bestExcludeFor address).valid then (l.bestExcludeFor address).prefixLen else -1

/-- `_skipToNextPool`: where the address is left. -/
def skipToNextPool (l : CIDRList) (address : CIDRAddress) : CIDRAddress :=
  (l.networks.foldl (poolStep address) .invalid).preDec

/-- `_skipToExcludeEnd`: where the address is left. -/
def skipToExcludeEnd (l : CIDRList) (address : CIDRAddress) : CIDRAddress :=
  let currentExclude := l.bestExcludeFor address
  let excludeEnd := currentExclude.broadcast
  l.networks.foldl (excludeStep address excludeEnd) excludeEnd

/-- `_nextSimple`: the list, which remembers the last address, and the address. -/
def nextSimple (l : CIDRList) (address : CIDRAddress) : CIDRList × CIDRAddress :=
  if !address.valid then ({ l with last := l.lastAddress }, l.firstAddress)
  else
    let address := address.preInc
    if address.gt l.last then (l, .invalid) else (l, address)

/-- One round of the loop of `next`, and whether the address was filtered. -/
def nextBody (s : CIDRList × CIDRAddress) : Bool × CIDRList × CIDRAddress :=
  let (l, address) := s.1.nextSimple s.2
  if !address.valid then (false, l, address)
  else
    let iprefix := l.bestNetworkPrefixFor address
    if iprefix = -1 then
      -- out of scope
      (true, l, l.skipToNextPool address)
    else
      let eprefix := l.bestExcludePrefixFor address
      if eprefix > iprefix then
        -- excluded
        (true, l, l.skipToExcludeEnd address)
      else
        -- not excluded, skip net and broadcast
        let net := l.bestNetworkFor address
        (net.prefixLen < 31 && (address.equals net.host || address.equals net.broadcast),
          l, address)

/-- `next (address)` returns, leaving the list and the address as in `t`; what it returns is
whether that address is valid. -/
def Next (s t : CIDRList × CIDRAddress) : Prop := DoWhile.Exits nextBody s t

/-- `while (list.next (addr)) { ... }` from an invalid address ends after the addresses `as`. -/
def Walk (l : CIDRList) (as : List CIDRAddress) : Prop :=
  ∃ ts, DoWhile.Drains nextBody (·.2.valid) (l, CIDRAddress.invalid) ts ∧ ts.map Prod.snd = as

end CIDRList

/-- A call that fills a list. -/
inductive ListCall (α : Type) where
  | add (net : α)
  | exclude (net : α)

/-- The list after a number of calls, made on a fresh one. -/
def CIDRList.filled (calls : List (ListCall CIDRAddress)) : CIDRList :=
  calls.foldl (fun l call ↦
    match call with
    | .add net => (l.add net).2
    | .exclude net => (l.exclude net).2) {}

/-! ## Filled lists -/

/-- A vector that is only pushed to through `add` and `exclude` holds valid networks, and as a set
it does not matter which of two equal ones was refused. -/
theorem mem_pushNew {nets : List CIDRAddress} (hv : ∀ n ∈ nets, n.valid = true)
    (net n : CIDRAddress) :
    n ∈ (pushNew nets net).2 ↔ n ∈ nets ∨ n.valid = true ∧ n = net := by
  unfold pushNew
  cases hnet : net.valid with
  | false =>
    simp only [Bool.not_false, if_true]
    constructor
    · exact Or.inl
    · rintro (h | ⟨h, rfl⟩)
      · exact h
      · simp [hnet] at h
  | true =>
    simp only [Bool.not_true, Bool.false_eq_true, if_false]
    split
    · rename_i hany
      obtain ⟨m, hm, heq⟩ := List.any_eq_true.mp hany
      obtain rfl := (equals_iff (hv m hm) hnet).mp heq
      constructor
      · exact Or.inl
      · rintro (h | ⟨-, rfl⟩)
        · exact h
        · exact hm
    · simp only [List.mem_append, List.mem_singleton]
      constructor
      · rintro (h | rfl)
        · exact Or.inl h
        · exact Or.inr ⟨hnet, rfl⟩
      · rintro (h | ⟨-, rfl⟩)
        · exact Or.inl h
        · exact Or.inr rfl

/-- The networks and the excludes of a filled list, as sets. -/
structure FilledFrom (calls : List (ListCall CIDRAddress)) (l : CIDRList) : Prop where
  networks : ∀ n, n ∈ l.networks ↔ n.valid = true ∧ .add n ∈ calls
  excludes : ∀ n, n ∈ l.excludedNetworks ↔ n.valid = true ∧ .exclude n ∈ calls

theorem filledFrom_filled (calls : List (ListCall CIDRAddress)) :
    FilledFrom calls (.filled calls) := by
  induction calls using List.reverseRecOn with
  | nil => exact ⟨by simp [CIDRList.filled], by simp [CIDRList.filled]⟩
  | append_singleton calls call ih =>
    rw [CIDRList.filled, List.foldl_append, ← CIDRList.filled, List.foldl_cons, List.foldl_nil]
    generalize CIDRList.filled calls = l at *
    cases call with
    | add net =>
      refine ⟨fun n ↦ ?_, fun n ↦ ?_⟩
      · have hpush := mem_pushNew (fun m hm ↦ ((ih.networks m).mp hm).1) net n
        simp only [CIDRList.add, hpush, ih.networks, List.mem_append, List.mem_singleton,
          ListCall.add.injEq]
        tauto
      · simp only [CIDRList.add, ih.excludes, List.mem_append, List.mem_singleton, reduceCtorEq,
          or_false]
    | exclude net =>
      refine ⟨fun n ↦ ?_, fun n ↦ ?_⟩
      · simp only [CIDRList.exclude, ih.networks, List.mem_append, List.mem_singleton,
          reduceCtorEq, or_false]
      · have hpush := mem_pushNew (fun m hm ↦ ((ih.excludes m).mp hm).1) net n
        simp only [CIDRList.exclude, hpush, ih.excludes, List.mem_append, List.mem_singleton,
          ListCall.exclude.injEq]
        tauto

/-! ## The loops over the networks -/

/-- What a search for the longest prefix finds. -/
structure IsBest (nets : List CIDRAddress) (address n : CIDRAddress) : Prop where
  mem : n ∈ nets
  contains : n.contains address = true
  longest : ∀ m ∈ nets, m.contains address = true → m.prefixLen ≤ n.prefixLen

theorem bestFor_spec (nets : List CIDRAddress) (address : CIDRAddress) :
    (bestFor nets address = .invalid ∧ ∀ n ∈ nets, n.contains address = false) ∨
      IsBest nets address (bestFor nets address) := by
  unfold bestFor
  -- the running prefix is the one of the running best network
  refine (Select.foldl_search (fun n : CIDRAddress ↦ n.contains address = true)
    (fun n ↦ (n.prefixLen, n)) (OrderDual.toDual ∘ CIDRAddress.prefixLen)
    (fun best n ↦ if n.contains address ∧ n.prefixLen > best.1 then (n.prefixLen, n) else best)
    (-1, .invalid) nets ?_ ?_ ?_).imp ?_ ?_
  · intro best n _ hnot
    exact if_neg fun h ↦ hnot h.1
  · intro n _ hcontains
    have hpos := prefixLen_nonneg (valid_of_contains hcontains).1
    exact if_pos ⟨hcontains, by omega⟩
  · intro n _ hcontains m _ _
    simp only [hcontains, true_and, gt_iff_lt, Function.comp_apply, OrderDual.toDual_lt_toDual]
  · rintro ⟨heq, hnone⟩
    exact ⟨by rw [heq], fun n hn ↦ Bool.eq_false_iff.mpr (hnone n hn)⟩
  · rintro ⟨n, hn, heq, hcontains, hmax⟩
    rw [heq]
    exact ⟨hn, hcontains, hmax⟩

theorem IsBest.valid {nets : List CIDRAddress} {address n : CIDRAddress}
    (h : IsBest nets address n) : n.valid = true := (valid_of_contains h.contains).1

/-- The network that is found has the longest prefix, so its length does not depend on the order
of the networks. -/
theorem IsBest.prefixLen_eq {nets nets' : List CIDRAddress} {address n n' : CIDRAddress}
    (h : IsBest nets address n) (h' : IsBest nets' address n')
    (hmem : ∀ m, m ∈ nets ↔ m ∈ nets') : n.prefixLen = n'.prefixLen :=
  le_antisymm (h'.longest n ((hmem n).mp h.mem) h.contains)
    (h.longest n' ((hmem n').mpr h'.mem) h'.contains)

/-- The networks `_skipToNextPool` chooses from. -/
def PoolAfter (address n : CIDRAddress) : Prop := address.key < n.key ∧ n.protocol = 4

theorem poolStep_of_not {address selected n : CIDRAddress} (h : ¬ PoolAfter address n) :
    poolStep address selected n = selected := by
  unfold poolStep
  rw [if_neg]
  simpa [PoolAfter, gt_iff] using h

theorem poolStep_of_pool {address selected n : CIDRAddress} (h : PoolAfter address n) :
    poolStep address selected n =
      if selected.valid = true ∧ selected.key ≤ n.key then selected else n.host := by
  unfold poolStep
  rw [if_pos (by simpa [PoolAfter, gt_iff] using h)]
  simp only [lt_iff]
  cases selected.valid with
  | false => simp
  | true =>
    simp only [if_true, true_and]
    by_cases hk : n.key < selected.key
    · rw [if_pos hk, if_neg (by omega)]
    · rw [if_neg hk, if_pos (by omega)]

theorem pools_spec (address : CIDRAddress) (nets : List CIDRAddress)
    (hv : ∀ n ∈ nets, n.valid = true) :
    (nets.foldl (poolStep address) .invalid = .invalid ∧ ∀ n ∈ nets, ¬ PoolAfter address n) ∨
      ∃ n ∈ nets, nets.foldl (poolStep address) .invalid = n.host ∧ PoolAfter address n ∧
        ∀ m ∈ nets, PoolAfter address m → n.key ≤ m.key := by
  apply Select.foldl_search (PoolAfter address) CIDRAddress.host CIDRAddress.key
  · intro selected n _ hnot
    exact poolStep_of_not hnot
  · intro n _ hpool
    rw [poolStep_of_pool hpool, if_neg (by simp)]
  · intro n _ hpool m hm _
    rw [poolStep_of_pool hpool, key_host (hv m hm), valid_host (hv m hm)]
    by_cases hlt : n.key < m.key
    · rw [if_pos hlt, if_neg (by omega)]
    · rw [if_neg hlt, if_pos ⟨rfl, by omega⟩]

/-- The networks `_skipToExcludeEnd` chooses from. -/
def InsideExclude (address excludeEnd n : CIDRAddress) : Prop :=
  address.key < n.key ∧ n.key < excludeEnd.key

theorem excludeStep_of_not {address excludeEnd selected n : CIDRAddress}
    (h : ¬ InsideExclude address excludeEnd n) :
    excludeStep address excludeEnd selected n = selected := by
  unfold excludeStep
  rw [if_neg]
  simpa [InsideExclude, gt_iff, lt_iff] using h

theorem excludeStep_of_inside {address excludeEnd selected n : CIDRAddress}
    (h : InsideExclude address excludeEnd n) (hsel : selected.valid = true) :
    excludeStep address excludeEnd selected n =
      if n.key < selected.key then n.host.preDec else selected := by
  unfold excludeStep
  rw [if_pos (by simpa [InsideExclude, gt_iff, lt_iff] using h), if_pos hsel]
  simp only [lt_iff]

/-- An address between two of one protocol is of that protocol. -/
theorem protocol_eq_of_between {a b x : CIDRAddress} (hab : a.protocol = b.protocol)
    (ha : a.valid = true) (hax : a.key ≤ x.key) (hxb : x.key ≤ b.key) :
    x.protocol = a.protocol := by
  have hpos := key_pos ha
  have hvx : x.valid = true := valid_iff_key.mpr (by omega)
  rcases protocol_of_valid ha with h4 | h6
  · have hb := (protocol_four_iff.mp (hab ▸ h4)).2
    rw [h4]
    exact protocol_four_iff.mpr ⟨hvx, by omega⟩
  · have hka := protocol_six_iff.mp h6
    rw [h6]
    exact protocol_six_iff.mpr (by omega)

/-- Where `_skipToExcludeEnd` lands: between the address and the end of the exclude, and not
beyond the start of any network in there. -/
structure LandsInside (address excludeEnd : CIDRAddress) (nets : List CIDRAddress)
    (r : CIDRAddress) : Prop where
  protocol : r.protocol = address.protocol
  ge : address.key ≤ r.key
  le_end : r.key ≤ excludeEnd.key
  le_nets : ∀ n ∈ nets, InsideExclude address excludeEnd n → r.key ≤ n.key

theorem excludes_spec {address excludeEnd : CIDRAddress} (nets : List CIDRAddress)
    (hv : ∀ n ∈ nets, n.valid = true) (ha : address.valid = true)
    (hp : excludeEnd.protocol = address.protocol) (hle : address.key ≤ excludeEnd.key) :
    LandsInside address excludeEnd nets
      (nets.foldl (excludeStep address excludeEnd) excludeEnd) := by
  induction nets using List.reverseRecOn with
  | nil => exact ⟨hp, hle, le_rfl, by simp⟩
  | append_singleton nets n ih =>
    have hih := ih (fun m hm ↦ hv m (List.mem_append_left _ hm))
    have hvn : n.valid = true := hv n (by simp)
    simp only [List.foldl_append, List.foldl_cons, List.foldl_nil]
    generalize nets.foldl (excludeStep address excludeEnd) excludeEnd = sel at hih
    have hsel : sel.valid = true :=
      valid_iff_key.mpr (by have := key_pos ha; have := hih.ge; omega)
    by_cases hn : InsideExclude address excludeEnd n
    · -- the address in front of the network, which `next` increments, is not below `address`
      rw [excludeStep_of_inside hn hsel]
      have hpn : n.host.protocol = address.protocol :=
        protocol_eq_of_between hp.symm ha (by rw [key_host hvn]; exact hn.1.le)
          (by rw [key_host hvn]; exact hn.2.le)
      have hdec := key_preDec ha hpn.symm (by rw [key_host hvn]; exact hn.1)
      rw [key_host hvn] at hdec
      have hlo := hn.1
      have hhi := hn.2
      split
      · rename_i hlt
        refine ⟨?_, by omega, by omega, ?_⟩
        · exact protocol_eq_of_between hp.symm ha (by omega) (by omega)
        · intro m hm hin
          rcases List.mem_append.mp hm with hm | hm
          · have := hih.le_nets m hm hin
            omega
          · rw [List.mem_singleton.mp hm]
            omega
      · rename_i hge
        refine ⟨hih.protocol, hih.ge, hih.le_end, ?_⟩
        intro m hm hin
        rcases List.mem_append.mp hm with hm | hm
        · exact hih.le_nets m hm hin
        · rw [List.mem_singleton.mp hm]
          omega
    · rw [excludeStep_of_not hn]
      refine ⟨hih.protocol, hih.ge, hih.le_end, ?_⟩
      intro m hm hin
      rcases List.mem_append.mp hm with hm | hm
      · exact hih.le_nets m hm hin
      · exact absurd (List.mem_singleton.mp hm ▸ hin) hn

namespace CIDRList

variable {l : CIDRList}

theorem firstAddress_nil (h : l.networks = []) : l.firstAddress = .invalid := by
  rw [firstAddress, h]

theorem lastAddress_nil (h : l.networks = []) : l.lastAddress = .invalid := by
  rw [lastAddress, h]

/-- The first address is the lowest of the networks' own addresses. -/
theorem firstAddress_spec (h : l.networks ≠ []) (hv : ∀ n ∈ l.networks, n.valid = true) :
    ∃ n ∈ l.networks, l.firstAddress = n.host ∧ ∀ m ∈ l.networks, n.key ≤ m.key := by
  unfold firstAddress
  match hl : l.networks with
  | [] => exact absurd hl h
  | n :: ns =>
    rw [hl] at hv
    obtain ⟨k, hk, heq, hmin⟩ := Select.foldl_lowest CIDRAddress.host CIDRAddress.key n ns
    refine ⟨k, hk, by simpa only [lt_iff] using heq, ?_⟩
    intro m hm
    have hle := hmin m hm
    rwa [key_host (hv k hk), key_host (hv m hm)] at hle

/-- The last address is the highest of the networks' last hosts. -/
theorem lastAddress_spec (h : l.networks ≠ []) :
    ∃ n ∈ l.networks, l.lastAddress = n.hostMax ∧
      ∀ m ∈ l.networks, m.hostMax.key ≤ n.hostMax.key := by
  unfold lastAddress
  match hl : l.networks with
  | [] => exact absurd hl h
  | n :: ns =>
    obtain ⟨k, hk, heq, hmax⟩ :=
      Select.foldl_lowest CIDRAddress.hostMax (OrderDual.toDual ∘ CIDRAddress.key) n ns
    simp only [Function.comp_apply, OrderDual.toDual_lt_toDual, OrderDual.toDual_le_toDual] at heq hmax
    exact ⟨k, hk, by simpa only [gt_iff] using heq, hmax⟩

end CIDRList

end FtyRest.Shared
