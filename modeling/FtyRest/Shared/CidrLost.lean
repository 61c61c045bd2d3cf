import FtyRest.Shared.CidrScope

/-!
# The networks that a walk steps over

`_skipToExcludeEnd` is to leave an excluded address in front of the next network.  Where it leaves
it on the first address of that network instead, the next round starts behind this address, and
the walk has stepped over it.  Which networks this happens to depends on the networks, the excludes
and the order of the networks in the list.
-/

namespace FtyRest.Shared

open CIDRAddress

/-! ## A candidate that is stepped back -/

/-- One start of the loop of `_skipToExcludeEnd`, which is between `a` and `e`. -/
def stepBack (a e selected s : Nat) : Nat :=
  if a < s ∧ s < e ∧ s < selected then s - 1 else selected

/-- The candidate is the start `m` itself, if `d` starts may lie between it and the end: the list
has the start behind `m` in front of `m`, and stepped back from it. -/
def passed (starts : List Nat) (m : Nat) : Nat → Bool
  | 0 => false
  | d + 1 => decide (starts.idxOf (m + 1) < starts.idxOf m) && !passed starts (m + 1) d

section

variable {a e m d : Nat} {ss pre post : List Nat}

theorem foldl_stepBack_ge (h : ∀ s ∈ ss, a < s → m < s) {selected : Nat} (hsel : m ≤ selected) :
    m ≤ ss.foldl (stepBack a e) selected := by
  induction ss generalizing selected with
  | nil => exact hsel
  | cons s ss ih =>
    obtain ⟨hs, hss⟩ := List.forall_mem_cons.mp h
    apply ih hss
    unfold stepBack
    split
    · have := hs (by omega)
      omega
    · exact hsel

theorem foldl_stepBack_eq {selected : Nat} (h : ∀ s ∈ ss, a < s → s < e → selected ≤ s) :
    ss.foldl (stepBack a e) selected = selected := by
  induction ss with
  | nil => rfl
  | cons s ss ih =>
    obtain ⟨hs, hss⟩ := List.forall_mem_cons.mp h
    have hstep : stepBack a e selected s = selected := by
      unfold stepBack
      rw [if_neg]
      rintro ⟨hlo, hhi, hlt⟩
      have := hs hlo hhi
      omega
    rw [List.foldl_cons, hstep, ih hss]

/-- What is behind a start in the list does not matter to it. -/
theorem passed_append (h : m ∈ pre) : passed (pre ++ post) m d = passed pre m d := by
  induction d generalizing m with
  | zero => rfl
  | succ d ih =>
    unfold passed
    have hlt := List.idxOf_lt_length_of_mem h
    rw [List.idxOf_append_of_mem h]
    by_cases hmem : m + 1 ∈ pre
    · rw [List.idxOf_append_of_mem hmem, ih hmem]
    · have hge := (List.idxOf_eq_length_iff.mpr hmem).ge
      rw [List.idxOf_append_of_notMem hmem, decide_eq_false (by omega), decide_eq_false (by omega)]
      rfl

/-- The first copy of the lowest start decides where the loop ends. -/
theorem foldl_stepBack_first (ha : a < m) (hm : m < e) (hpre : m ∉ pre)
    (hlow : ∀ s ∈ pre ++ m :: post, a < s → m ≤ s) :
    (pre ++ m :: post).foldl (stepBack a e) e =
      if pre.foldl (stepBack a e) e = m then m else m - 1 := by
  have hge : m ≤ pre.foldl (stepBack a e) e := by
    apply foldl_stepBack_ge _ hm.le
    intro s hs has
    have hle := hlow s (List.mem_append_left _ hs) has
    have hne : s ≠ m := fun h ↦ hpre (h ▸ hs)
    omega
  have hpost : ∀ s ∈ post, a < s → m ≤ s := fun s hs ↦ hlow s (by simp [hs])
  rw [List.foldl_append, List.foldl_cons]
  generalize pre.foldl (stepBack a e) e = v at hge
  -- at `m` itself nothing is closer any more; else it comes in, and leaves the address in front
  by_cases hv : v = m
  · have hstep : stepBack a e v m = m := by
      rw [stepBack, if_neg (by omega), hv]
    rw [hstep, if_pos hv]
    exact foldl_stepBack_eq fun s hs has _ ↦ hpost s hs has
  · have hstep : stepBack a e v m = m - 1 := by
      rw [stepBack, if_pos (by omega)]
    rw [hstep, if_neg hv]
    apply foldl_stepBack_eq
    intro s hs has _
    have := hpost s hs has
    omega

/-- The loop ends on the lowest start or in front of it. -/
theorem foldl_stepBack (he : m + 1 + d = e) (ha : a < m) (hm : m ∈ ss)
    (hlow : ∀ s ∈ ss, a < s → m ≤ s) :
    ss.foldl (stepBack a e) e = if passed ss m d then m else m - 1 := by
  induction d generalizing m ss with
  | zero =>
    obtain ⟨pre, post, rfl, hpre⟩ := List.eq_append_cons_of_mem hm
    rw [foldl_stepBack_first ha (by omega) hpre hlow, passed, if_neg Bool.false_ne_true, if_neg]
    -- nothing in front of the start is below the end
    rw [foldl_stepBack_eq]
    · omega
    · intro s hs has hse
      have hle := hlow s (List.mem_append_left _ hs) has
      have hne : s ≠ m := fun h ↦ hpre (h ▸ hs)
      omega
  | succ d ih =>
    obtain ⟨pre, post, rfl, hpre⟩ := List.eq_append_cons_of_mem hm
    rw [foldl_stepBack_first ha (by omega) hpre hlow]
    have hlow' : ∀ s ∈ pre, a < s → m + 1 ≤ s := by
      intro s hs has
      have hle := hlow s (List.mem_append_left _ hs) has
      have hne : s ≠ m := fun h ↦ hpre (h ▸ hs)
      omega
    have hidx : (pre ++ m :: post).idxOf m = pre.length := by
      rw [List.idxOf_append_of_notMem hpre, List.idxOf_cons_self, Nat.add_zero]
    rw [passed, hidx]
    by_cases hnext : m + 1 ∈ pre
    · -- the candidate in front of `m` is stepped back from the next start
      have hlt := List.idxOf_lt_length_of_mem hnext
      rw [ih (by omega) (by omega) hnext hlow', List.idxOf_append_of_mem hnext, passed_append hnext,
        decide_eq_true hlt, Bool.true_and]
      cases passed pre (m + 1) d with
      | true => simp
      | false => simp
    · have hge : m + 1 ≤ pre.foldl (stepBack a e) e := by
        apply foldl_stepBack_ge _ (by omega)
        intro s hs has
        have hle := hlow' s hs has
        have hne : s ≠ m + 1 := fun h ↦ hnext (h ▸ hs)
        omega
      have hidx' : pre.length ≤ (pre ++ m :: post).idxOf (m + 1) := by
        rw [List.idxOf_append_of_notMem hnext]
        omega
      rw [if_neg (by omega), decide_eq_false (by omega), Bool.false_and, if_neg Bool.false_ne_true]

end

/-- The loop of `_skipToExcludeEnd`, as one over the starts. -/
theorem key_excludes {address excludeEnd : CIDRAddress} (nets : List CIDRAddress)
    (hv : ∀ n ∈ nets, n.valid = true) (ha : address.valid = true)
    (hp : excludeEnd.protocol = address.protocol) {selected : CIDRAddress}
    (hsel : selected.valid = true) :
    (nets.foldl (excludeStep address excludeEnd) selected).key =
      (nets.map key).foldl (stepBack address.key excludeEnd.key) selected.key := by
  induction nets generalizing selected with
  | nil => rfl
  | cons n nets ih =>
    obtain ⟨hvn, hvs⟩ := List.forall_mem_cons.mp hv
    rw [List.map_cons, List.foldl_cons, List.foldl_cons]
    by_cases hn : InsideExclude address excludeEnd n
    · rw [excludeStep_of_inside hn hsel]
      -- a key between the address and the end of the exclude is one of the same protocol
      have hpn : n.host.protocol = address.protocol :=
        protocol_eq_of_between hp.symm ha (by rw [key_host hvn]; exact hn.1.le)
          (by rw [key_host hvn]; exact hn.2.le)
      have hdec := key_preDec ha hpn.symm (by rw [key_host hvn]; exact hn.1)
      rw [key_host hvn] at hdec
      have hlo := hn.1
      by_cases hlt : n.key < selected.key
      · have hvdec : n.host.preDec.valid = true := by
          have := key_pos ha
          exact valid_iff_key.mpr (by omega)
        have hstep : stepBack address.key excludeEnd.key selected.key n.key = n.host.preDec.key := by
          rw [stepBack, if_pos ⟨hn.1, hn.2, hlt⟩]
          omega
        rw [if_pos hlt, ih hvs hvdec, hstep]
      · have hstep : stepBack address.key excludeEnd.key selected.key n.key = selected.key :=
          if_neg fun h ↦ hlt h.2.2
        rw [if_neg hlt, ih hvs hsel, hstep]
    · have hstep : stepBack address.key excludeEnd.key selected.key n.key = selected.key :=
        if_neg fun h ↦ hn ⟨h.1, h.2.1⟩
      rw [excludeStep_of_not hn, ih hvs hsel, hstep]

namespace CIDRList

variable {l : CIDRList} {x z e : CIDRAddress}

/-! ## What hides an address -/

/-- The exclude that hides an address: the longest one around it, and longer than every network
around it. -/
structure HiddenBy (l : CIDRList) (e x : CIDRAddress) : Prop where
  best : IsBest l.excludedNetworks x e
  inside : ∃ n ∈ l.networks, n.contains x = true
  longer : ∀ n ∈ l.networks, n.contains x = true → n.prefixLen < e.prefixLen

theorem excluded_iff_hiddenBy : l.Excluded x ↔ ∃ e, l.HiddenBy e x := by
  constructor
  · intro h
    obtain ⟨hnet, hni⟩ := isBest_network h.1
    obtain ⟨hexc, hei⟩ := isBest_exclude h
    refine ⟨l.bestExcludeFor x, hexc, ⟨_, hnet.mem, hnet.contains⟩, fun n hn hc ↦ ?_⟩
    have hle := hnet.longest n hn hc
    have hlt := h.2
    omega
  · rintro ⟨e, hbest, ⟨n, hn, hc⟩, hlonger⟩
    have hscope : ¬ l.OutOfScope x := by
      intro hout
      rw [outOfScope_iff.mp hout n hn] at hc
      cases hc
    obtain ⟨hnet, hni⟩ := isBest_network hscope
    have hlt := hlonger _ hnet.mem hnet.contains
    refine ⟨hscope, ?_⟩
    unfold bestExcludePrefixFor bestExcludeFor
    rcases bestPrefix_spec l.excludedNetworks x with ⟨-, hnone⟩ | ⟨-, hexc, hp⟩
    · have hnot := hnone e hbest.mem
      rw [hbest.contains] at hnot
      cases hnot
    · have hle := hexc.longest e hbest.mem hbest.contains
      omega

/-- Excludes that hide an address end at the same address. -/
theorem HiddenBy.hiKey_eq (h : l.HiddenBy e x) : e.hiKey = (l.bestExcludeFor x).hiKey := by
  have hbest := (isBest_exclude (excluded_iff_hiddenBy.mpr ⟨e, h⟩)).1
  have hle := h.best.longest _ hbest.mem hbest.contains
  have hge := hbest.longest _ h.best.mem h.best.contains
  have hin := nested h.best.contains hbest.contains hge
  have hin' := nested hbest.contains h.best.contains hle
  omega

/-- An address that is hidden by an exclude around `z`, and no network starts between the two. -/
structure HiddenBefore (l : CIDRList) (z e x : CIDRAddress) : Prop where
  isHost : x.IsHost
  before : x.key < z.key
  hidden : l.HiddenBy e x
  around : e.contains z = true
  alone : ∀ n ∈ l.networks, x.key < n.key → z.key ≤ n.key

/-- The first address of this kind. -/
structure FirstHidden (l : CIDRList) (z e x : CIDRAddress) : Prop extends HiddenBefore l z e x where
  first : ∀ e' y, l.HiddenBefore z e' y → x.key ≤ y.key

theorem HiddenBefore.first_exists (h : l.HiddenBefore z e x) : ∃ e' y, l.FirstHidden z e' y := by
  have hex : ∃ k e' y, l.HiddenBefore z e' y ∧ y.key = k := ⟨_, e, x, h, rfl⟩
  classical
  obtain ⟨e', y, hy, hkey⟩ := Nat.find_spec hex
  refine ⟨e', y, hy, fun e'' w hw ↦ ?_⟩
  rw [hkey]
  exact Nat.find_min' hex ⟨e'', w, hw, rfl⟩

/-- With this exclude the loop ends on the start `z`, as this is the end of the exclude or is
passed. -/
def EndsOn (l : CIDRList) (e z : CIDRAddress) : Prop :=
  z.key = e.hiKey ∨ passed (l.networks.map key) z.key (e.hiKey - 1 - z.key) = true

/-- The first address `z` of a network is stepped over: the walk comes to the first address in
front of it that is hidden by an exclude around it, and from there the loop ends on `z`. -/
def Lost (l : CIDRList) (z : CIDRAddress) : Prop :=
  (∃ n ∈ l.networks, n.host = z) ∧
    ∃ e x, ∃ _ : l.FirstHidden z e x, l.EndsOn e z ∧ ¬ Lost l x
termination_by z.key
decreasing_by
  rename_i h
  exact h.before
theorem Lost.start (h : l.Lost z) : ∃ n ∈ l.networks, n.host = z := by
  rw [Lost] at h
  exact h.1

/-! ## Where an excluded round lands -/

theorem HiddenBy.broadcast_key (h : l.HiddenBy e x) :
    (l.bestExcludeFor x).broadcast.key = e.hiKey := by
  rw [key_broadcast (isBest_exclude (excluded_iff_hiddenBy.mpr ⟨e, h⟩)).1.valid, h.hiKey_eq]

/-- The round that stands on such an address lands on the start `z`, or in front of it. -/
theorem HiddenBefore.lands (hv : ∀ n ∈ l.networks, n.valid = true) (h : l.HiddenBefore z e x)
    (hz : ∃ n ∈ l.networks, n.host = z) :
    l.EndsOn e z ∧ (l.skipToExcludeEnd x).key = z.key ∨
      ¬ l.EndsOn e z ∧ (l.skipToExcludeEnd x).key + 1 = z.key := by
  obtain ⟨n, hn, rfl⟩ := hz
  have hbest := (isBest_exclude (excluded_iff_hiddenBy.mpr ⟨e, h.hidden⟩)).1
  have hvx := (valid_of_contains hbest.contains).2
  have hvz := valid_host (hv n hn)
  have hle := ((contains_host_iff h.hidden.best.valid hvz (isHost_host (hv n hn))).mp h.around).2
  have hp : (l.bestExcludeFor x).broadcast.protocol = x.protocol := by
    rw [protocol_broadcast hbest.valid, protocol_of_contains hbest.contains]
  -- no network starts between, so `z` is the first start the loop can meet
  have hlow : ∀ s ∈ l.networks.map key, x.key < s → n.host.key ≤ s := by
    intro s hs hlt
    obtain ⟨m, hm, rfl⟩ := List.mem_map.mp hs
    exact h.alone m hm hlt
  unfold skipToExcludeEnd EndsOn
  rw [key_excludes l.networks hv hvx hp (valid_broadcast hbest.valid), h.hidden.broadcast_key]
  -- the exclude ends at `z`, or the loop decides by the order of the networks
  rcases hle.eq_or_lt with heq | hlt
  · left
    rw [foldl_stepBack_eq fun s hs hxs _ ↦ heq.ge.trans (hlow s hs hxs)]
    exact ⟨Or.inl heq, heq.symm⟩
  · have hmem : n.host.key ∈ l.networks.map key := by
      rw [key_host (hv n hn)]
      exact List.mem_map_of_mem hn
    have hbefore := h.before
    rw [foldl_stepBack (d := e.hiKey - 1 - n.host.key) (by omega) h.before hmem hlow]
    by_cases hpassed : passed (l.networks.map key) n.host.key (e.hiKey - 1 - n.host.key) = true
    · exact Or.inl ⟨Or.inr hpassed, if_pos hpassed⟩
    · right
      rw [if_neg hpassed]
      exact ⟨not_or.mpr ⟨hlt.ne, hpassed⟩, by omega⟩

/-- A start that is passed has another one right behind it. -/
theorem start_of_passed {starts : List Nat} {m d : Nat} (h : passed starts m d = true) :
    m + 1 ∈ starts := by
  cases d with
  | zero => cases h
  | succ d =>
    unfold passed at h
    rw [Bool.and_eq_true, decide_eq_true_eq] at h
    exact List.idxOf_lt_length_iff.mp (h.1.trans_le List.idxOf_le_length)

/-- The round that skips onto a start stands on such an address. -/
theorem hiddenBefore_of_skips (hv : ∀ n ∈ l.networks, n.valid = true) (hx : x.IsHost)
    (hexc : l.Excluded x) (hlt : x.key < z.key) (hkey : (l.skipToExcludeEnd x).key = z.key)
    (hz : ∃ n ∈ l.networks, n.host = z) : ∃ e, l.HiddenBefore z e x := by
  obtain ⟨n, hn, rfl⟩ := hz
  obtain ⟨e, he⟩ := excluded_iff_hiddenBy.mp hexc
  have hve := he.best.valid
  have hvx := (valid_of_contains he.best.contains).2
  have hin := (contains_host_iff hve hvx hx).mp he.best.contains
  have hend := (skipToExcludeEnd_spec hv hexc hx).le_end
  rw [he.broadcast_key] at hend
  refine ⟨e, hx, hlt, he, ?_, fun m hm hxm ↦ ?_⟩
  · rw [contains_host_iff hve (valid_host (hv n hn)) (isHost_host (hv n hn))]
    omega
  · have hle := hexc.skipToExcludeEnd_le hv hx hm hxm
    omega

theorem Canonical.start_le_last (hl : l.Canonical) {n : CIDRAddress} (hn : n ∈ l.networks) :
    n.host.key ≤ l.lastAddress.key := by
  have hlo := hl.loKey n hn
  rw [key_host (hl.valid n hn)]
  apply hl.le_last hn (key_le_hiKey (hl.valid n hn))
  intro hshort
  have := loKey_lt_hiKey (hl.protocol n hn) hshort
  omega

/-- The walk comes to the first hidden address in front of a start, unless this is a start itself
and skipped. -/
theorem FirstHidden.stands_or_skipped (hl : l.Canonical) (hz : ∃ n ∈ l.networks, n.host = z)
    (h : l.FirstHidden z e x) :
    l.Stands x ∨ (∃ n ∈ l.networks, n.host = x) ∧ l.SkipsOnto x := by
  have hve := h.hidden.best.valid
  have hvx := (valid_of_contains h.hidden.best.contains).2
  have hvz := (valid_of_contains h.around).2
  obtain ⟨n, hn, hc⟩ := h.hidden.inside
  obtain ⟨k, hk, rfl⟩ := hz
  have hzhost := isHost_host (hl.valid k hk)
  have hlast := h.before.le.trans (hl.start_le_last hk)
  rcases hl.stands_or_jumped hn hc h.isHost hlast with hstands | ⟨y, hy, hexc, hlt, hover⟩
  · exact Or.inl hstands
  right
  have hyh := hy.isHost hl
  obtain ⟨e', he'⟩ := excluded_iff_hiddenBy.mp hexc
  have hve' := he'.best.valid
  have hyin := (contains_host_iff hve' hy.1 hyh).mp he'.best.contains
  have hend := (skipToExcludeEnd_spec hl.valid hexc hyh).le_end
  rw [he'.broadcast_key] at hend
  by_cases hstart : ∃ m ∈ l.networks, y.key < m.key ∧ m.key ≤ x.key
  · obtain ⟨m, hm, hym, hmx⟩ := hstart
    have hle := hexc.skipToExcludeEnd_le hl.valid hyh hm hym
    have heq := ((eq_host_iff h.isHost hvx (hl.valid m hm)).mpr (by omega)).symm
    exact ⟨⟨m, hm, heq⟩, y, hy, hexc, hlt, by omega⟩
  · exfalso
    -- the exclude that is left lies around `z` too, so `y` is hidden in front of `x`
    have hex : e'.contains x = true := by
      rw [contains_host_iff hve' hvx h.isHost]
      omega
    have hin := nested hex h.hidden.best.contains (h.hidden.best.longest e' he'.best.mem hex)
    have hzin := (contains_host_iff hve hvz hzhost).mp h.around
    have hez : e'.contains k.host = true := by
      rw [contains_host_iff hve' hvz hzhost]
      omega
    have hbefore : l.HiddenBefore k.host e' y := by
      refine ⟨hyh, hlt.trans h.before, he', hez, fun m hm hym ↦ h.alone m hm ?_⟩
      by_contra hmx
      exact hstart ⟨m, hm, hym, not_lt.mp hmx⟩
    exact absurd (h.first e' y hbefore) (not_le.mpr hlt)

/-- What is hidden in front of a start is not itself a start that is skipped, or there is nothing
between the two. -/
theorem FirstHidden.succ_of_skipped (hl : l.Canonical) (h : l.FirstHidden z e x)
    (hz : z.IsHost) (hstart : ∃ n ∈ l.networks, n.host = x) (hskip : l.SkipsOnto x) :
    z.key = x.key + 1 := by
  obtain ⟨w, hw, hexc, hlt, hkey⟩ := hskip
  obtain ⟨e', he'⟩ := hiddenBefore_of_skips hl.valid (hw.isHost hl) hexc hlt hkey hstart
  have hvx := (valid_of_contains h.hidden.best.contains).2
  have hvz := (valid_of_contains h.around).2
  have hzin := (contains_host_iff h.hidden.best.valid hvz hz).mp h.around
  have hbefore := h.before
  -- the exclude around `x` and `z` lies inside the one that is left
  have hin := nested he'.around h.hidden.best.contains
    (h.hidden.best.longest e' he'.hidden.best.mem he'.around)
  rcases he'.lands hl.valid hstart with ⟨hend | hpassed, -⟩ | ⟨-, hbelow⟩
  · omega
  · obtain ⟨n, hn, hnext⟩ := List.mem_map.mp (start_of_passed hpassed)
    have hle := h.alone n hn (by omega)
    omega
  · omega

/-- The starts that the walk skips are the lost ones. -/
theorem Canonical.skipsOnto_iff_lost (hl : l.Canonical) (hz : ∃ n ∈ l.networks, n.host = z) :
    l.SkipsOnto z ↔ l.Lost z := by
  induction hk : z.key using Nat.strong_induction_on generalizing z with
  | h k ih =>
    have hstands : ∀ e x, l.FirstHidden z e x → (l.Stands x ↔ ¬ l.Lost x) := by
      intro e x h
      have hlt := h.before
      constructor
      · intro hx hlost
        exact ((ih _ (by omega) hlost.start rfl).mpr hlost).not_stands hl hx
      · intro hlost
        rcases h.stands_or_skipped hl hz with hx | ⟨hstart, hskip⟩
        · exact hx
        · exact absurd ((ih _ (by omega) hstart rfl).mp hskip) hlost
    rw [Lost, and_iff_right hz]
    constructor
    · rintro ⟨x, hx, hexc, hlt, hkey⟩
      have hxh := hx.isHost hl
      obtain ⟨e, he⟩ := hiddenBefore_of_skips hl.valid hxh hexc hlt hkey hz
      obtain ⟨e', y, hy⟩ := he.first_exists
      have hvy := (valid_of_contains hy.hidden.best.contains).2
      rcases (hy.first e x he).eq_or_lt with heq | hyx
      · obtain rfl := eq_of_key_eq hy.isHost hxh hvy heq
        refine ⟨e', y, hy, ?_, (hstands e' y hy).mp hx⟩
        rcases hy.lands hl.valid hz with ⟨hends, -⟩ | ⟨-, hbelow⟩
        · exact hends
        · omega
      · -- the round that stands on the first one would jump over `x`
        exfalso
        rcases hy.stands_or_skipped hl hz with hstand | ⟨hstart, hskip⟩
        · refine hl.not_stands_of_jump hstand hyx ?_ hx
          rw [land_of_excluded (excluded_iff_hiddenBy.mpr ⟨e', hy.hidden⟩)]
          rcases hy.lands hl.valid hz with ⟨-, hkey'⟩ | ⟨-, hbelow⟩ <;> omega
        · obtain ⟨n, hn, rfl⟩ := hz
          have hsucc := hy.succ_of_skipped hl (isHost_host (hl.valid n hn)) hstart hskip
          omega
    · rintro ⟨e, x, hx, hends, hlost⟩
      refine ⟨x, (hstands e x hx).mpr hlost, excluded_iff_hiddenBy.mpr ⟨e, hx.hidden⟩, hx.before, ?_⟩
      rcases hx.lands hl.valid hz with ⟨-, hkey⟩ | ⟨hnot, -⟩
      · exact hkey
      · exact absurd hends hnot

/-- The walk over an IPv4 list produces what the filter lets through, less the lost starts. -/
theorem mem_walk_iff_not_lost {xs : List CIDRAddress} (hl : l.Canonical) (h : l.Walk xs) :
    z ∈ xs ↔ l.Yields z ∧ ¬ l.Lost z := by
  rw [mem_walk_iff_yields hl h]
  apply and_congr_right
  intro hz
  rw [not_iff_not]
  constructor
  · intro hskip
    obtain ⟨x, hx, hexc, hlt, hkey⟩ := id hskip
    have hover : z.key ≤ (l.land x).key := by
      rw [land_of_excluded hexc]
      exact hkey.ge
    have hstart := (hl.start_of_jump (hx.isHost hl) hx.1 hz.isHost hz.kept hlt hover).1
    exact (hl.skipsOnto_iff_lost hstart).mp hskip
  · intro hlost
    exact (hl.skipsOnto_iff_lost hlost.start).mpr hlost

end CIDRList

end FtyRest.Shared
