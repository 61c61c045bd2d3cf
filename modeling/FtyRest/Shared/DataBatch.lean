import FtyRest.Shared.Data
import Mathlib.Data.Finset.Card
import Mathlib.Logic.Relation

/-!
# What a batch of deletions leaves behind

The runs of `delete_item (ids, element_info)` over a store of assets, power links and ext
attributes.  Which queries throw and how each deletion ends is a script, so that the results hold
for every run.
-/

/-! ## Heights in acyclic relations

An acyclic relation whose steps end in a finite set has a height that drops with every step, and
that is at most the size of the set. -/

namespace Acyclic

open Relation

variable {α : Type*} {r : α → α → Prop}

open Classical in
/-- The number of elements that can be reached. -/
noncomputable def height (r : α → α → Prop) (s : Finset α) (a : α) : Nat :=
  (s.filter fun b ↦ TransGen r a b).card

theorem height_le (s : Finset α) (a : α) : height r s a ≤ s.card := by
  classical exact Finset.card_filter_le _ _

theorem height_lt {s : Finset α} (hs : ∀ a b, r a b → b ∈ s) (hac : ∀ a, ¬ TransGen r a a) {a b : α}
    (h : r a b) : height r s b < height r s a := by
  classical
  unfold height
  apply Finset.card_lt_card
  rw [Finset.ssubset_iff_of_subset]
  · -- `b` itself is what is reached from `a` only
    refine ⟨b, ?_, ?_⟩
    · exact Finset.mem_filter.mpr ⟨hs a b h, .single h⟩
    · intro hb
      exact hac b (Finset.mem_filter.mp hb).2
  · intro c hc
    obtain ⟨hcs, hbc⟩ := Finset.mem_filter.mp hc
    exact Finset.mem_filter.mpr ⟨hcs, .head h hbc⟩

end Acyclic

namespace FtyRest.Shared

open Db Relation

structure ExtAttribute where
  assetId : Nat
  keytag : String
  value : String
deriving DecidableEq, Repr

/-- The assets, the power links as pairs of source and destination, and the ext attributes. -/
structure AssetStore where
  assets : List AssetRow
  links : List (Nat × Nat)
  attributes : List ExtAttribute := []
deriving DecidableEq, Repr

/-- What is not in the store: the exceptions of the link query, and the answers of the
deletions. -/
structure Script where
  status : Nat → String := fun _ ↦ "active"
  linkQuery : Nat → Option String := fun _ ↦ none
  reply : Nat → Except String DbReply := fun _ ↦ .ok {}
  assetJson : Nat → Except String String := fun _ ↦ .ok "an asset"

namespace AssetStore

def row? (w : AssetStore) (id : Nat) : Option AssetRow := w.assets.find? (·.id = id)

/-- The asset goes, with its ext attributes, when the deletion succeeds.  Otherwise the transaction
is rolled back. -/
def remove (w : AssetStore) (id : Nat) (links : List (Nat × Nat)) : Except String DbReply →
    AssetStore
  | .ok reply =>
      if reply.status = 0 then w
      else {
        assets := w.assets.filter fun row ↦ ¬ row.id = id
        links
        attributes := w.attributes.filter fun ext ↦ ¬ ext.assetId = id }
  | .error _ => w

end AssetStore

/-- The database behind a run. -/
def Script.db (script : Script) : AssetDb AssetStore where
  selectAssetElementWebById w id :=
    match w.row? id with
    | some row => .ok ⟨row.typeId, row.subtypeId, row.name, row.parentId, script.status id⟩
    | none => .error .notFound
  countKeytag w keytag value :=
    (w.attributes.filter fun ext ↦ ext.keytag = keytag ∧ ext.value = value).length
  selectAssets w := w.assets
  selectLinkDests w id :=
    match script.linkQuery id with
    | some what => .error what
    | none => .ok ((w.links.filter (·.1 = id)).map (·.2))
  getJsonAsset _ id := script.assetJson id
  deleteDcRoomRowRack w id := (w.remove id w.links (script.reply id), script.reply id)
  deleteGroup w id := (w.remove id w.links (script.reply id), script.reply id)
  -- the links to a device go with it
  deleteDevice w id _ :=
    (w.remove id (w.links.filter fun link ↦ ¬ link.2 = id) (script.reply id), script.reply id)

namespace AssetStore

variable (w : AssetStore)

/-- `c` is located in `p`. -/
def Child (p c : Nat) : Prop := ∃ row ∈ w.assets, row.id = c ∧ row.parentId = p

/-- An asset forest. -/
structure Forest : Prop where
  ids : (w.assets.map AssetRow.id).Nodup
  acyclic : ∀ x, ¬ TransGen w.Child x x

/-- The asset of the default rack controller. -/
def IsRc0 (x : Nat) : Prop := ∃ row ∈ w.assets, row.id = x ∧ row.name = rc0Iname

/-- `y` is located in `x`, or powered by it. -/
def Dependent (x y : Nat) : Prop :=
  ∃ row ∈ w.assets, row.id = y ∧ (row.parentId = x ∨ (x, y) ∈ w.links)

/-- Nothing that is there hangs on `x`. -/
def NoOrphan (x : Nat) : Prop := ∀ y, ¬ w.Dependent x y

end AssetStore

/-! ## Collecting the children -/

namespace AssetStore

variable {w : AssetStore}

theorem Forest.row_unique (hw : w.Forest) {row row' : AssetRow} (hrow : row ∈ w.assets)
    (hrow' : row' ∈ w.assets) (hid : row.id = row'.id) : row = row' :=
  List.inj_on_of_nodup_map hw.ids hrow hrow' hid

theorem Forest.isRc0_iff (hw : w.Forest) {row : AssetRow} (hrow : row ∈ w.assets) :
    w.IsRc0 row.id ↔ row.name = rc0Iname := by
  constructor
  · rintro ⟨row', hrow', hid, hname⟩
    rwa [← hw.row_unique hrow' hrow hid]
  · intro hname
    exact ⟨row, hrow, rfl, hname⟩

/-- The outcome of collecting: the ids in `d` come in, unless one of them is the default rack
controller. -/
def Collected (w : AssetStore) (d : Nat → Prop) (ids : List ElementInfo) :
    Except Stop (List ElementInfo) → Prop
  | .ok ids' => (∀ y, d y → ¬ w.IsRc0 y) ∧ ∀ y, (∃ item ∈ ids', item.el.id = y) ↔
      (∃ item ∈ ids, item.el.id = y) ∨ d y
  | .error (.check _) => ∃ y, d y ∧ w.IsRc0 y
  | .error .diverges => False

theorem Collected.congr {d d' : Nat → Prop} {ids : List ElementInfo}
    {r : Except Stop (List ElementInfo)} (h : w.Collected d ids r) (hd : ∀ y, d y ↔ d' y) :
    w.Collected d' ids r := by
  rwa [show d' = d from funext fun y ↦ propext (hd y).symm]

theorem Collected.trans {d d' : Nat → Prop} {ids ids' : List ElementInfo}
    {r : Except Stop (List ElementInfo)} (h : w.Collected d ids (.ok ids'))
    (h' : w.Collected d' ids' r) : w.Collected (fun y ↦ d y ∨ d' y) ids r := by
  obtain ⟨hrc, hmem⟩ := h
  cases r with
  | error stop =>
    cases stop with
    | diverges => exact h'
    | check e =>
      obtain ⟨y, hy, hrcy⟩ := h'
      exact ⟨y, Or.inr hy, hrcy⟩
  | ok ids'' =>
    obtain ⟨hrc', hmem'⟩ := h'
    refine ⟨fun y hy ↦ hy.elim (hrc y) (hrc' y), fun y ↦ ?_⟩
    rw [hmem', hmem, or_assoc]

theorem Collected.fails {d d' : Nat → Prop} {ids : List ElementInfo} {e : CheckException}
    (h : w.Collected d ids (.error (.check e))) (hd : ∀ y, d y → d' y) :
    w.Collected d' ids (.error (.check e)) := by
  obtain ⟨y, hy, hrc⟩ := h
  exact ⟨y, hd y hy, hrc⟩

/-- Items of the list of children are never the default rack controller. -/
def NoRc0 (w : AssetStore) (ids : List ElementInfo) : Prop := ∀ item ∈ ids, ¬ w.IsRc0 item.el.id

theorem Collected.noRc0 {d : Nat → Prop} {ids ids' : List ElementInfo}
    (h : w.Collected d ids (.ok ids')) (hids : w.NoRc0 ids) : w.NoRc0 ids' := by
  intro item hitem
  rcases (h.2 item.el.id).mp ⟨item, hitem, rfl⟩ with ⟨item', hitem', hid⟩ | hd
  · exact hid ▸ hids item' hitem'
  · exact h.1 _ hd

theorem checkAndAddInfo_spec (hw : w.Forest) {row : AssetRow} (hrow : row ∈ w.assets)
    {ids : List ElementInfo} (hids : w.NoRc0 ids) :
    w.Collected (· = row.id) ids ((checkAndAddInfo ids row.info).mapError .check) := by
  unfold checkAndAddInfo
  -- an asset that is listed is not added again
  by_cases hany : ids.any (·.el.id = row.info.el.id) = true
  · rw [if_pos hany]
    obtain ⟨item, hitem, heq⟩ := List.any_eq_true.mp hany
    have hid : item.el.id = row.id := of_decide_eq_true heq
    refine ⟨?_, fun y ↦ ?_⟩
    · rintro y rfl
      exact hid ▸ hids item hitem
    · constructor
      · exact Or.inl
      · rintro (h | rfl)
        · exact h
        · exact ⟨item, hitem, hid⟩
  · rw [if_neg hany]
    -- the only refusal here is the one of the rack controller
    by_cases hname : rc0Iname = row.info.el.name
    · rw [if_pos hname]
      exact ⟨row.id, rfl, row, hrow, rfl, hname.symm⟩
    · rw [if_neg hname]
      refine ⟨?_, fun y ↦ ?_⟩
      · rintro y rfl hrc
        exact hname ((hw.isRc0_iff hrow).mp hrc).symm
      · simp only [List.mem_append, List.mem_singleton, or_and_right, exists_or, exists_eq_left]
        exact or_congr Iff.rfl eq_comm

/-- The height of the forest below an asset. -/
noncomputable def depth (w : AssetStore) (x : Nat) : Nat :=
  Acyclic.height w.Child (w.assets.map AssetRow.id).toFinset x

theorem Forest.depth_lt (hw : w.Forest) {p c : Nat} (h : w.Child p c) : w.depth c < w.depth p := by
  refine Acyclic.height_lt ?_ hw.acyclic h
  rintro a b ⟨row, hrow, rfl, -⟩
  exact List.mem_toFinset.mpr (List.mem_map.mpr ⟨row, hrow, rfl⟩)

theorem depth_le (w : AssetStore) (x : Nat) : w.depth x ≤ w.assets.length := by
  refine (Acyclic.height_le _ _).trans ((List.toFinset_card_le _).trans ?_)
  rw [List.length_map]

/-- `collectChildren` adds what is located in the asset, at any depth. -/
theorem collectChildren_spec (hw : w.Forest) {fuel id : Nat} {ids : List ElementInfo}
    (hfuel : w.depth id < fuel) (hids : w.NoRc0 ids) :
    w.Collected (TransGen w.Child id) ids (collectChildren w.assets fuel id ids) := by
  induction fuel generalizing id ids with
  | zero => exact absurd hfuel (Nat.not_lt_zero _)
  | succ fuel ih =>
    unfold collectChildren
    -- the rows that were looked at so far bring in their own descendants
    suffices h : ∀ rows : List AssetRow, (∀ row ∈ rows, row ∈ w.assets) →
        ∀ ids : List ElementInfo, w.NoRc0 ids →
        w.Collected (fun y ↦ ∃ row ∈ rows, row.parentId = id ∧
          (TransGen w.Child row.id y ∨ y = row.id)) ids
          (rows.foldlM (fun ids row ↦
            if id = row.parentId then do
              let ids ← collectChildren w.assets fuel row.id ids
              (checkAndAddInfo ids row.info).mapError .check
            else .ok ids) ids) by
      refine (h w.assets (fun _ hrow ↦ hrow) ids hids).congr fun y ↦ ?_
      constructor
      · rintro ⟨row, hrow, hp, hbelow | rfl⟩
        · exact .head ⟨row, hrow, rfl, hp⟩ hbelow
        · exact .single ⟨row, hrow, rfl, hp⟩
      · intro hy
        rcases TransGen.head'_iff.mp hy with ⟨c, ⟨row, hrow, rfl, hp⟩, hrest⟩
        refine ⟨row, hrow, hp, ?_⟩
        rcases reflTransGen_iff_eq_or_transGen.mp hrest with heq | hbelow
        · exact Or.inr heq
        · exact Or.inl hbelow
    intro rows hrows
    induction rows with
    | nil =>
      intro ids _
      exact ⟨by simp, by simp⟩
    | cons row rows ihrows =>
      intro ids hids
      have hrow : row ∈ w.assets := hrows row List.mem_cons_self
      have hrest := ihrows fun r hr ↦ hrows r (List.mem_cons_of_mem _ hr)
      rw [List.foldlM_cons]
      by_cases hp : id = row.parentId
      · rw [if_pos hp]
        have hdepth : w.depth row.id < fuel := by
          have := hw.depth_lt ⟨row, hrow, rfl, hp.symm⟩
          omega
        have hbelow := ih hdepth hids
        cases hc : collectChildren w.assets fuel row.id ids with
        | error stop =>
          rw [hc] at hbelow
          cases stop with
          | diverges => exact hbelow.elim
          | check e =>
            exact hbelow.fails fun y hy ↦ ⟨row, List.mem_cons_self, hp.symm, Or.inl hy⟩
        | ok ids' =>
          rw [hc] at hbelow
          have hself := checkAndAddInfo_spec hw hrow (hbelow.noRc0 hids)
          have hboth := hbelow.trans hself
          simp only [bind, Except.bind] at hself hboth ⊢
          cases hadd : (checkAndAddInfo ids' row.info).mapError Stop.check with
          | error stop =>
            rw [hadd] at hboth
            cases stop with
            | diverges => exact hboth.elim
            | check e =>
              exact hboth.fails fun y hy ↦ ⟨row, List.mem_cons_self, hp.symm, hy⟩
          | ok ids'' =>
            rw [hadd] at hboth
            refine (hboth.trans (hrest ids'' (hboth.noRc0 hids))).congr fun y ↦ ?_
            simp [hp]
      · rw [if_neg hp]
        refine (hrest ids hids).congr fun y ↦ ?_
        simp [Ne.symm hp]

end AssetStore

/-! ## The checks -/

namespace AssetStore

section

variable (w : AssetStore) (script : Script) (ids : List Nat)

/-- The request for `x` gets into the work list. -/
structure Listed (x : Nat) : Prop where
  found : ∃ row ∈ w.assets, row.id = x
  notRc0 : ¬ w.IsRc0 x
  below : ∀ y, TransGen w.Child x y → ¬ w.IsRc0 y
  linkQuery : script.linkQuery x = none

/-- The request for `x` passes all checks. -/
structure Accepted (x : Nat) : Prop where
  requested : x ∈ ids
  listed : w.Listed script x
  children : ∀ y, TransGen w.Child x y → y ∈ ids
  powered : ∀ y, (x, y) ∈ w.links → y ∈ ids

/-- The entry of the work list. -/
def itemOf (row : AssetRow) : ElementInfo :=
  { row.info with links := (w.links.filter (·.1 = row.id)).map (·.2) }

open Classical in
/-- What a requested id brings into the work list. -/
noncomputable def entry (x : Nat) : List ElementInfo :=
  if w.Listed script x then (w.row? x).toList.map w.itemOf else []

/-- The work list that is sorted. -/
noncomputable def workList : List ElementInfo := ids.flatMap (w.entry script)

/-- The order in which the work list is gone through. -/
noncomputable def order (std : StdSort) : List Nat :=
  (std.sort (before (w.workList script ids)) (w.workList script ids)).map (·.el.id)

end

variable {w : AssetStore} {script : Script} {ids : List Nat}

theorem row?_eq_some (hw : w.Forest) {row : AssetRow} (hrow : row ∈ w.assets) :
    w.row? row.id = some row := by
  obtain ⟨row', hfind⟩ : ∃ row', w.row? row.id = some row' := by
    apply Option.isSome_iff_exists.mp
    exact List.find?_isSome.mpr ⟨row, hrow, by simp⟩
  have hid : row'.id = row.id := by simpa using List.find?_some hfind
  rw [hfind, hw.row_unique (List.mem_of_find?_eq_some hfind) hrow hid]

theorem row?_eq_none {x : Nat} (h : ∀ row ∈ w.assets, row.id ≠ x) : w.row? x = none := by
  apply List.find?_eq_none.mpr
  intro row hrow
  simpa using h row hrow

/-- Nothing is left when every requested id is taken away. -/
theorem foldl_filter_isEmpty {β : Type} (key : β → Nat) (items : List β) :
    (ids.foldl (fun items existsId ↦ items.filter fun item ↦ ¬ key item = existsId)
      items).isEmpty = true ↔ ∀ item ∈ items, key item ∈ ids := by
  induction ids generalizing items with
  | nil => simp [List.eq_nil_iff_forall_not_mem]
  | cons id ids ih =>
    rw [List.foldl_cons, ih]
    constructor
    · intro h item hitem
      by_cases hid : key item = id
      · exact hid ▸ List.mem_cons_self
      · exact List.mem_cons_of_mem id (h item (List.mem_filter.mpr ⟨hitem, by simpa using hid⟩))
    · intro h item hitem
      obtain ⟨hin, hid⟩ := List.mem_filter.mp hitem
      exact (List.mem_cons.mp (h item hin)).resolve_left (by simpa using hid)

theorem entry_of_listed (hw : w.Forest) {row : AssetRow} (hrow : row ∈ w.assets)
    (h : w.Listed script row.id) : w.entry script row.id = [w.itemOf row] := by
  rw [entry, if_pos h, row?_eq_some hw hrow]
  rfl

theorem entry_of_not_listed {x : Nat} (h : ¬ w.Listed script x) : w.entry script x = [] := by
  rw [entry, if_neg h]

theorem links_left_iff (row : AssetRow) :
    (ids.foldl (fun links existsId ↦ links.filter (· ≠ existsId)) (w.itemOf row).links).isEmpty =
      true ↔ ∀ y, (row.id, y) ∈ w.links → y ∈ ids := by
  refine (foldl_filter_isEmpty (fun y : Nat ↦ y) _).trans ?_
  simp only [itemOf, List.mem_map, List.mem_filter, decide_eq_true_eq]
  constructor
  · intro h y hy
    exact h y ⟨(row.id, y), ⟨hy, rfl⟩, rfl⟩
  · rintro h y ⟨link, ⟨hlink, hsrc⟩, rfl⟩
    exact h link.2 (hsrc ▸ hlink)

variable (ids) in
theorem children_left_iff {x : Nat} {children : List ElementInfo}
    (hmem : ∀ y, (∃ item ∈ children, item.el.id = y) ↔ TransGen w.Child x y) :
    (ids.foldl (fun children existsId ↦ children.filter fun item ↦ ¬ item.el.id = existsId)
      children).isEmpty = true ↔ ∀ y, TransGen w.Child x y → y ∈ ids := by
  refine (foldl_filter_isEmpty (fun item : ElementInfo ↦ item.el.id) _).trans ?_
  simp only [← hmem]
  constructor
  · rintro h y ⟨item, hitem, rfl⟩
    exact h item hitem
  · intro h item hitem
    exact h _ ⟨item, hitem, rfl⟩

/-- The outcome of the checks on `x`. -/
def Checked (w : AssetStore) (script : Script) (ids : List Nat) (x : Nat) :
    Except Stop Unit → Prop
  | .ok () => w.Accepted script ids x
  | .error (.check _) => ¬ w.Accepted script ids x
  | .error .diverges => False

variable (script) in
/-- The request for an asset brings its entry into the work list, also when a later check
fails. -/
theorem request_spec (hw : w.Forest) {row : AssetRow} (hrow : row ∈ w.assets)
    (hreq : row.id ∈ ids) {toDel : List ElementInfo} (hnew : ∀ item ∈ toDel, item.el.id ≠ row.id) :
    ∃ r, request script.db w ids toDel { el := row.info.el } =
        (toDel ++ w.entry script row.id, r) ∧ w.Checked script ids row.id r := by
  have hdepth : w.depth row.id < w.assets.length + 1 := Nat.lt_succ_of_le (w.depth_le row.id)
  have hnone : w.NoRc0 [] := by simp [NoRc0]
  have hspec := collectChildren_spec hw hdepth hnone
  have hassets : script.db.selectAssets w = w.assets := rfl
  have hid : row.info.el.id = row.id := rfl
  unfold request
  simp only [hassets, hid]
  cases hc : collectChildren w.assets (w.assets.length + 1) row.id [] with
  | error stop =>
    -- the default rack controller is located in the asset
    rw [hc] at hspec
    cases stop with
    | diverges => exact hspec.elim
    | check e =>
      obtain ⟨y, hy, hrc⟩ := hspec
      have hnot : ¬ w.Listed script row.id := fun h ↦ h.below y hy hrc
      rw [entry_of_not_listed hnot, List.append_nil]
      exact ⟨_, rfl, fun h ↦ hnot h.listed⟩
  | ok children =>
    rw [hc] at hspec
    obtain ⟨hbelow, hmem⟩ := hspec
    cases hq : script.linkQuery row.id with
    | some what =>
      -- the links cannot be read
      have hnot : ¬ w.Listed script row.id := fun h ↦ by simp [h.linkQuery] at hq
      rw [entry_of_not_listed hnot, List.append_nil]
      simp only [selectAnyLinks, Script.db, hid, hq, Except.mapError]
      exact ⟨_, rfl, fun h ↦ hnot h.listed⟩
    | none =>
      have hlinks : selectAnyLinks script.db w { el := row.info.el } = .ok (w.itemOf row).links := by
        simp [selectAnyLinks, Script.db, hid, hq, Except.mapError, itemOf]
      have hany : toDel.any (·.el.id = row.id) = false := by simpa using hnew
      simp only [hlinks]
      by_cases hname : rc0Iname = row.name
      · -- the default rack controller is not listed
        have hnot : ¬ w.Listed script row.id :=
          fun h ↦ h.notRc0 ((hw.isRc0_iff hrow).mpr hname.symm)
        rw [entry_of_not_listed hnot, List.append_nil]
        simp only [checkAndAddInfo, hid, hany, if_false, Bool.false_eq_true,
          show row.info.el.name = row.name from rfl, if_pos hname]
        exact ⟨_, rfl, fun h ↦ hnot h.listed⟩
      · have hlisted : w.Listed script row.id :=
          ⟨⟨row, hrow, rfl⟩, fun h ↦ hname ((hw.isRc0_iff hrow).mp h).symm, hbelow, hq⟩
        have hadd : checkAndAddInfo toDel { el := row.info.el, links := (w.itemOf row).links } =
            .ok (toDel ++ [w.itemOf row]) := by
          simp only [checkAndAddInfo, hid, hany, if_false, Bool.false_eq_true,
            show row.info.el.name = row.name from rfl, if_neg hname]
          rfl
        have hbelow' (y : Nat) :
            (∃ item ∈ children, item.el.id = y) ↔ TransGen w.Child row.id y :=
          (hmem y).trans (by simp)
        have hleft := children_left_iff ids hbelow'
        rw [entry_of_listed hw hrow hlisted]
        simp only [hadd]
        by_cases hch : ∀ y, TransGen w.Child row.id y → y ∈ ids
        · simp only [hleft.mpr hch, Bool.not_true, Bool.false_eq_true, if_false]
          by_cases hpow : ∀ y, (row.id, y) ∈ w.links → y ∈ ids
          · simp only [(links_left_iff row).mpr hpow, Bool.not_true, Bool.false_eq_true, if_false]
            exact ⟨_, rfl, hreq, hlisted, hch, hpow⟩
          · -- something outside of the request is powered
            have hsome := Bool.eq_false_iff.mpr fun h ↦ hpow ((links_left_iff row).mp h)
            simp only [hsome, Bool.not_false, if_true]
            exact ⟨_, rfl, fun h ↦ hpow h.powered⟩
        · -- something outside of the request is located in the asset
          have hsome := Bool.eq_false_iff.mpr fun h ↦ hch (hleft.mp h)
          simp only [hsome, Bool.not_false, if_true]
          exact ⟨_, rfl, fun h ↦ hch h.children⟩

/-- What is read of an asset before it is asked for. -/
theorem selectAssetElementWebById_of_mem (script : Script) (hw : w.Forest) {row : AssetRow}
    (hrow : row ∈ w.assets) : script.db.selectAssetElementWebById w row.id =
      .ok ⟨row.typeId, row.subtypeId, row.name, row.parentId, script.status row.id⟩ := by
  simp only [Script.db, row?_eq_some hw hrow]

theorem element_of_row (script : Script) (row : AssetRow) : BasicElement.element
    ⟨row.typeId, row.subtypeId, row.name, row.parentId, script.status row.id⟩ row.id =
      row.info.el := rfl

variable (script) in
/-- One round of the first loop. -/
theorem collect_spec (hw : w.Forest) {x : Nat} (hreq : x ∈ ids) {work : Work}
    (hnew : ∀ item ∈ work.toDel, item.el.id ≠ x) :
    ∃ work', collect script.db w ids work x = some work' ∧
      work'.toDel = work.toDel ++ w.entry script x ∧
      ((w.Accepted script ids x ∧ work'.ret = work.ret) ∨
        (¬ w.Accepted script ids x ∧
          ∃ answ : DbReply, answ.status = 0 ∧ work'.ret = work.ret ++ [(x, answ)])) := by
  unfold collect
  by_cases hfound : ∃ row ∈ w.assets, row.id = x
  · obtain ⟨row, hrow, rfl⟩ := hfound
    obtain ⟨r, hr, hchecked⟩ := request_spec script hw hrow hreq hnew
    simp only [selectAssetElementWebById_of_mem script hw hrow, element_of_row script row, hr]
    cases r with
    | ok u => exact ⟨_, rfl, rfl, Or.inl ⟨hchecked, rfl⟩⟩
    | error stop =>
      cases stop with
      | diverges => exact hchecked.elim
      | check e => exact ⟨_, rfl, rfl, Or.inr ⟨hchecked, e.answ, rfl, rfl⟩⟩
  · -- the asset is not there
    have hnot : ¬ w.Listed script x := fun h ↦ hfound h.found
    have hbasic : script.db.selectAssetElementWebById w x = .error .notFound := by
      push Not at hfound
      simp only [Script.db, row?_eq_none hfound]
    simp only [hbasic, entry_of_not_listed hnot, List.append_nil]
    exact ⟨_, rfl, rfl, Or.inr ⟨fun h ↦ hnot h.listed, _, rfl, rfl⟩⟩

theorem mem_entry (hw : w.Forest) {x : Nat} {item : ElementInfo} (h : item ∈ w.entry script x) :
    w.Listed script x ∧ ∃ row ∈ w.assets, row.id = x ∧ item = w.itemOf row := by
  by_cases hlisted : w.Listed script x
  · obtain ⟨row, hrow, rfl⟩ := hlisted.found
    rw [entry_of_listed hw hrow hlisted] at h
    exact ⟨hlisted, row, hrow, rfl, List.mem_singleton.mp h⟩
  · rw [entry_of_not_listed hlisted] at h
    exact absurd h List.not_mem_nil

theorem id_of_mem_entry (hw : w.Forest) {x : Nat} {item : ElementInfo}
    (h : item ∈ w.entry script x) : item.el.id = x := by
  obtain ⟨-, row, -, rfl, rfl⟩ := mem_entry hw h
  rfl

variable (script) in
/-- The first loop: the work list is filled, and exactly the refused ids have an answer. -/
theorem foldlM_collect (hw : w.Forest) {xs : List Nat} (hxs : ∀ x ∈ xs, x ∈ ids) (hnodup : xs.Nodup)
    {work : Work} (hnew : ∀ item ∈ work.toDel, item.el.id ∉ xs) :
    ∃ work' refusals, xs.foldlM (collect script.db w ids) work = some work' ∧
      work'.toDel = work.toDel ++ xs.flatMap (w.entry script) ∧
      work'.ret = work.ret ++ refusals ∧ (∀ p ∈ refusals, p.2.status = 0) ∧
      (refusals.map (·.1)).Sublist xs ∧
      ∀ x, (∃ p ∈ refusals, p.1 = x) ↔ x ∈ xs ∧ ¬ w.Accepted script ids x := by
  induction xs generalizing work with
  | nil => exact ⟨work, [], rfl, by simp, by simp, by simp, by simp, by simp⟩
  | cons x xs ih =>
    obtain ⟨hx, hnodup⟩ := List.nodup_cons.mp hnodup
    obtain ⟨work', hwork, htoDel, hret⟩ := collect_spec script hw
      (hxs x List.mem_cons_self) fun item hitem heq ↦ hnew item hitem (heq ▸ List.mem_cons_self)
    have hnew' : ∀ item ∈ work'.toDel, item.el.id ∉ xs := by
      intro item hitem
      rw [htoDel] at hitem
      rcases List.mem_append.mp hitem with hold | hentry
      · exact fun h ↦ hnew item hold (List.mem_cons_of_mem x h)
      · rwa [id_of_mem_entry hw hentry]
    obtain ⟨work'', refusals, hrun, htoDel', hret', hstatus, hsub, hrefused⟩ :=
      ih (fun y hy ↦ hxs y (List.mem_cons_of_mem x hy)) hnodup hnew'
    have hfold : (x :: xs).foldlM (collect script.db w ids) work = some work'' := by
      rw [List.foldlM_cons, hwork]
      exact hrun
    have hlist : work''.toDel = work.toDel ++ (x :: xs).flatMap (w.entry script) := by
      rw [htoDel', htoDel, List.flatMap_cons, List.append_assoc]
    -- the first id is accepted and entered, or its refusal is the first of the answers
    rcases hret with ⟨hacc, hret⟩ | ⟨hacc, answ, hansw, hret⟩
    · refine ⟨work'', refusals, hfold, hlist, by rw [hret', hret], hstatus, hsub.cons x,
        fun y ↦ ?_⟩
      rw [hrefused, List.mem_cons]
      constructor
      · exact fun h ↦ ⟨Or.inr h.1, h.2⟩
      · rintro ⟨rfl | hy, hnot⟩
        · exact absurd hacc hnot
        · exact ⟨hy, hnot⟩
    · refine ⟨work'', (x, answ) :: refusals, hfold, hlist, by rw [hret', hret]; simp, ?_,
        hsub.cons_cons x, fun y ↦ ?_⟩
      · intro p hp
        rcases List.mem_cons.mp hp with rfl | hp
        · exact hansw
        · exact hstatus p hp
      · simp only [List.mem_cons, exists_eq_or_imp, hrefused]
        constructor
        · rintro (rfl | h)
          · exact ⟨Or.inl rfl, hacc⟩
          · exact ⟨Or.inr h.1, h.2⟩
        · rintro ⟨rfl | hy, hnot⟩
          · exact Or.inl rfl
          · exact Or.inr ⟨hy, hnot⟩

end AssetStore

/-! ## The deletions -/

namespace AssetStore

variable {w : AssetStore} {script : Script} {ids : List Nat} {gone : Nat → Prop}

/-- `world` is what is left of `w` when the assets in `gone` are deleted. -/
structure Left (w : AssetStore) (gone : Nat → Prop) (world : AssetStore) : Prop where
  assets : ∀ row, row ∈ world.assets ↔ row ∈ w.assets ∧ ¬ gone row.id
  links : ∀ link, ¬ gone link.2 → (link ∈ world.links ↔ link ∈ w.links)
  attributes : ∀ ext, ext ∈ world.attributes ↔ ext ∈ w.attributes ∧ ¬ gone ext.assetId

theorem left_refl (w : AssetStore) : w.Left (fun _ ↦ False) w :=
  ⟨by simp, by simp, by simp⟩

theorem Left.noOrphan_iff {world : AssetStore} (h : w.Left gone world) (x : Nat) :
    world.NoOrphan x ↔ ∀ y, w.Dependent x y → gone y := by
  constructor
  · rintro hno _ ⟨row, hrow, rfl, hdep⟩
    by_contra hthere
    refine hno row.id ⟨row, (h.assets row).mpr ⟨hrow, hthere⟩, rfl, ?_⟩
    exact hdep.imp id (h.links (x, row.id) hthere).mpr
  · rintro hgone _ ⟨row, hrow, rfl, hdep⟩
    obtain ⟨hrow, hthere⟩ := (h.assets row).mp hrow
    refine hthere (hgone row.id ⟨row, hrow, rfl, ?_⟩)
    exact hdep.imp id (h.links (x, row.id) hthere).mp

/-- The types that `deleteAsset` knows. -/
def KnownType (typeId : Nat) : Prop :=
  typeId = AssetType.datacenter ∨ typeId = AssetType.row ∨ typeId = AssetType.room ∨
    typeId = AssetType.rack ∨ typeId = AssetType.group ∨ typeId = AssetType.device

/-- The deletion of an asset, once it is called, succeeds. -/
def Succeeds (script : Script) (row : AssetRow) : Prop :=
  KnownType row.typeId ∧ ∃ reply, script.reply row.id = .ok reply ∧ reply.status ≠ 0

/-- A `logical_asset` of what is not deleted refers to the asset. -/
def Refers (w : AssetStore) (s : Nat) (row : AssetRow) : Prop :=
  ∃ ext ∈ w.attributes, ext.assetId = s ∧ ext.keytag = "logical_asset" ∧ ext.value = row.name

theorem Left.remove {world : AssetStore} (h : w.Left gone world) {x : Nat}
    {links : List (Nat × Nat)} (hlinks : ∀ link, link.2 ≠ x → (link ∈ links ↔ link ∈ world.links))
    (reply : Except String DbReply) :
    w.Left (fun y ↦ gone y ∨ y = x ∧ ∃ r, reply = .ok r ∧ r.status ≠ 0)
      (world.remove x links reply) := by
  -- a deletion that throws or answers with 0 is rolled back
  have hsame : (¬ ∃ r, reply = .ok r ∧ r.status ≠ 0) → world.remove x links reply = world := by
    intro hfails
    cases reply with
    | error what => rfl
    | ok r =>
      have : r.status = 0 := by
        by_contra hstatus
        exact hfails ⟨r, rfl, hstatus⟩
      simp only [AssetStore.remove, if_pos this]
  by_cases hok : ∃ r, reply = .ok r ∧ r.status ≠ 0
  · obtain ⟨r, rfl, hstatus⟩ := hok
    simp only [AssetStore.remove, if_neg hstatus]
    refine ⟨fun row ↦ ?_, fun link hthere ↦ ?_, fun ext ↦ ?_⟩
    · simp only [List.mem_filter, h.assets]
      simp [hstatus, not_or, and_assoc]
    · simp only [Except.ok.injEq, exists_eq_left', hstatus, ne_eq, not_false_eq_true, and_true,
        not_or] at hthere
      rw [hlinks link hthere.2, h.links link hthere.1]
    · simp only [List.mem_filter, h.attributes]
      simp [hstatus, not_or, and_assoc]
  · rw [hsame hok]
    simpa [hok] using h

variable (script) in
theorem Left.countKeytag_eq_zero {world : AssetStore} (h : w.Left gone world) (row : AssetRow) :
    script.db.countKeytag world "logical_asset" row.name = 0 ↔ ∀ s, w.Refers s row → gone s := by
  simp only [Script.db, List.length_eq_zero_iff, List.filter_eq_nil_iff, decide_eq_true_eq]
  constructor
  · rintro hnone _ ⟨ext, hext, rfl, hkey, hvalue⟩
    by_contra hthere
    exact hnone ext ((h.attributes ext).mpr ⟨hext, hthere⟩) ⟨hkey, hvalue⟩
  · rintro hgone ext hext ⟨hkey, hvalue⟩
    obtain ⟨hext, hthere⟩ := (h.attributes ext).mp hext
    exact hthere (hgone _ ⟨ext, hext, rfl, hkey, hvalue⟩)

theorem Left.congr {gone' : Nat → Prop} {world : AssetStore} (h : w.Left gone world)
    (heq : ∀ y, gone y ↔ gone' y) : w.Left gone' world := by
  rwa [show gone' = gone from funext fun y ↦ propext (heq y).symm]

variable (script) in
theorem persistDelete_left {world : AssetStore} (h : w.Left gone world) (row : AssetRow) :
    w.Left (fun y ↦ gone y ∨ y = row.id ∧ Succeeds script row)
      (persistDelete script.db world row.id row.typeId "").1 := by
  have hkeep : ∀ link : Nat × Nat, link.2 ≠ row.id → (link ∈ world.links ↔ link ∈ world.links) :=
    fun _ _ ↦ Iff.rfl
  unfold persistDelete
  -- the types of the source, one after the other
  split
  · rename_i htype
    refine (h.remove hkeep (script.reply row.id)).congr fun y ↦ ?_
    simp only [Succeeds, KnownType]
    tauto
  · split
    · rename_i htype
      refine (h.remove hkeep (script.reply row.id)).congr fun y ↦ ?_
      simp only [Succeeds, KnownType]
      tauto
    · split
      · rename_i htype
        simp only [show ("" = "active") = False from by simp, if_false]
        have hdrop : ∀ link : Nat × Nat, link.2 ≠ row.id →
            (link ∈ world.links.filter (fun link ↦ ¬ link.2 = row.id) ↔ link ∈ world.links) := by
          intro link hne
          simp [hne]
        refine (h.remove hdrop (script.reply row.id)).congr fun y ↦ ?_
        simp only [Succeeds, KnownType]
        tauto
      · refine h.congr fun y ↦ ?_
        simp only [Succeeds, KnownType]
        tauto

variable (script) in
theorem deleteAsset_left {world : AssetStore} (h : w.Left gone world) (row : AssetRow) :
    w.Left (fun y ↦ gone y ∨ y = row.id ∧ Succeeds script row ∧ ∀ s, w.Refers s row → gone s)
      (deleteAsset script.db world (w.itemOf row)).1 := by
  have hcount := h.countKeytag_eq_zero script row
  have hworld : (deleteAsset script.db world (w.itemOf row)).1 =
      if script.db.countKeytag world "logical_asset" row.name > 0 then world
      else (persistDelete script.db world row.id row.typeId "").1 :=
    deleteAsset_world script.db world (w.itemOf row)
  rw [hworld]
  by_cases hpos : script.db.countKeytag world "logical_asset" row.name > 0
  · rw [if_pos hpos]
    have hrefs : ¬ ∀ s, w.Refers s row → gone s := fun hrefs ↦ by
      have := hcount.mpr hrefs
      omega
    exact h.congr fun y ↦ by simp [hrefs]
  · rw [if_neg hpos]
    have hrefs := hcount.mp (by omega)
    refine (persistDelete_left script h row).congr fun y ↦ ?_
    exact or_congr_right (and_congr_right fun _ ↦ (and_iff_left hrefs).symm)

/-- `y` is deleted in a run that goes through `order`: it is accepted, its deletion succeeds, and
each `logical_asset` that refers to it is deleted before. -/
inductive Removed (w : AssetStore) (script : Script) (ids order : List Nat) : Nat → Prop
  | intro {row : AssetRow} (hrow : row ∈ w.assets) (haccepted : w.Accepted script ids row.id)
      (hsucceeds : Succeeds script row)
      (hbefore : ∀ s, w.Refers s row → [s, row.id].Sublist order)
      (hrefs : ∀ s, w.Refers s row → w.Removed script ids order s) :
      w.Removed script ids order row.id

theorem pair_sublist_iff {x y : Nat} {pre post : List Nat} (h : (pre ++ x :: post).Nodup) :
    [y, x].Sublist (pre ++ x :: post) ↔ y ∈ pre := by
  constructor
  · intro hsub
    rcases List.sublist_append_iff.mp hsub with ⟨l, l', heq, hl, hl'⟩
    cases l with
    | cons a l => exact hl.subset (by simp_all)
    | nil =>
      -- then `x` would come after itself
      obtain rfl : [y, x] = l' := heq
      have hx : x ∈ post := by
        cases hl' with
        | cons _ hsub => exact hsub.subset (by simp)
        | cons_cons _ hsub => exact hsub.subset (by simp)
      exact absurd hx (List.nodup_cons.mp (List.nodup_append.mp h).2.1).1
  · intro hy
    exact (List.singleton_sublist.mpr hy).append (List.singleton_sublist.mpr List.mem_cons_self)

/-- The accepted items have no answer, the refused ones have one with status `0`. -/
def Answered (w : AssetStore) (script : Script) (ids : List Nat) (items : List ElementInfo)
    (ret : List (Nat × DbReply)) : Prop :=
  ∀ item ∈ items, (ret.find? (·.1 = item.el.id)).all (·.2.status ≠ 0) = true ↔
    w.Accepted script ids item.el.id

/-- What the first loop answers is known to the second one. -/
theorem answered_of_refused {items : List ElementInfo} {refusals : List (Nat × DbReply)}
    (hitems : ∀ item ∈ items, item.el.id ∈ ids) (hstatus : ∀ p ∈ refusals, p.2.status = 0)
    (hrefused : ∀ x, (∃ p ∈ refusals, p.1 = x) ↔ x ∈ ids ∧ ¬ w.Accepted script ids x) :
    w.Answered script ids items refusals := by
  intro item hitem
  have hrefused := hrefused item.el.id
  cases hfind : refusals.find? (·.1 = item.el.id) with
  | none =>
    simp only [Option.all_none, true_iff]
    by_contra hnot
    obtain ⟨p, hp, hpid⟩ := hrefused.mpr ⟨hitems item hitem, hnot⟩
    simpa [hpid] using List.find?_eq_none.mp hfind p hp
  | some p =>
    have hp := List.mem_of_find?_eq_some hfind
    have hpid : p.1 = item.el.id := by simpa using List.find?_some hfind
    simpa [hstatus p hp] using (hrefused.mp ⟨p, hp, hpid⟩).2

theorem Answered.tail {item : ElementInfo} {items : List ElementInfo} {ret : List (Nat × DbReply)}
    (h : w.Answered script ids (item :: items) ret) (hnew : item.el.id ∉ items.map (·.el.id))
    (reply : DbReply) : w.Answered script ids items (ret ++ [(item.el.id, reply)]) := by
  intro item' hitem'
  have hne : ¬ item.el.id = item'.el.id :=
    fun heq ↦ hnew (heq ▸ List.mem_map.mpr ⟨item', hitem', rfl⟩)
  rw [← h item' (List.mem_cons_of_mem item hitem'), List.find?_append]
  simp [hne]

/-- One round of the second loop. -/
theorem deleteNext_spec {run : BatchRun AssetStore} (hleft : w.Left gone run.world)
    {row : AssetRow} {items : List ElementInfo}
    (hanswered : w.Answered script ids (w.itemOf row :: items) run.ret)
    (hnew : row.id ∉ items.map (·.el.id)) :
    w.Left (fun y ↦ gone y ∨ y = row.id ∧ w.Accepted script ids row.id ∧ Succeeds script row ∧
        ∀ s, w.Refers s row → gone s) (deleteNext script.db run (w.itemOf row)).world ∧
      w.Answered script ids items (deleteNext script.db run (w.itemOf row)).ret ∧
      ((w.Accepted script ids row.id ∧ (deleteNext script.db run (w.itemOf row)).issued =
          run.issued ++ [(row.id, run.world)]) ∨
        (¬ w.Accepted script ids row.id ∧
          (deleteNext script.db run (w.itemOf row)).issued = run.issued)) := by
  have hself := hanswered (w.itemOf row) List.mem_cons_self
  have hid : (w.itemOf row).el.id = row.id := rfl
  -- a refused asset has its answer already, and nothing is called for it
  by_cases hacc : w.Accepted script ids row.id
  · have hdel := deleteAsset_left script hleft row
    unfold deleteNext
    rw [if_pos (hself.mpr hacc)]
    rcases hasset : deleteAsset script.db run.world (w.itemOf row) with ⟨world, e | reply, calls⟩
    all_goals
      rw [hasset] at hdel
      refine ⟨hdel.congr fun y ↦ by simp [hacc], hanswered.tail hnew _, Or.inl ⟨hacc, rfl⟩⟩
  · unfold deleteNext
    rw [if_neg fun h ↦ hacc (hself.mp h)]
    refine ⟨hleft.congr fun y ↦ by simp [hacc], ?_, Or.inr ⟨hacc, rfl⟩⟩
    exact fun item hitem ↦ hanswered item (List.mem_cons_of_mem _ hitem)

variable (script) in
/-- The second loop: what is issued finds the assets gone that were removed before. -/
theorem foldl_deleteNext {std : List Nat} (hw : w.Forest) {done : List Nat}
    {items : List ElementInfo} {run : BatchRun AssetStore}
    (hitems : ∀ item ∈ items, ∃ row ∈ w.assets, item = w.itemOf row)
    (horder : std = done ++ items.map (·.el.id)) (hnodup : std.Nodup)
    (hleft : w.Left (fun y ↦ y ∈ done ∧ w.Removed script ids std y) run.world)
    (hanswered : w.Answered script ids items run.ret) :
    ∃ issued, (items.foldl (deleteNext script.db) run).issued = run.issued ++ issued ∧
      ((∀ e ∈ issued, e.2.NoOrphan e.1) ↔ ∀ x ∈ items.map (·.el.id), w.Accepted script ids x →
        ∀ y, w.Dependent x y → [y, x].Sublist std ∧ w.Removed script ids std y) := by
  induction items generalizing done run with
  | nil => exact ⟨[], by simp, by simp⟩
  | cons item items ih =>
    obtain ⟨row, hrow, rfl⟩ := hitems item List.mem_cons_self
    have hid : (w.itemOf row).el.id = row.id := rfl
    rw [List.map_cons, hid] at horder
    have hpair (y : Nat) : [y, row.id].Sublist std ↔ y ∈ done := by
      rw [horder]
      exact pair_sublist_iff (horder ▸ hnodup)
    have hnew : row.id ∉ items.map (·.el.id) :=
      (List.nodup_cons.mp (List.nodup_append.mp (horder ▸ hnodup)).2.1).1
    obtain ⟨hleft', hanswered', hissued⟩ := deleteNext_spec hleft hanswered hnew
    -- the round removes its asset exactly if it is removed at all
    have hremoved : (w.Accepted script ids row.id ∧ Succeeds script row ∧
        ∀ s, w.Refers s row → s ∈ done ∧ w.Removed script ids std s) ↔
        w.Removed script ids std row.id := by
      constructor
      · rintro ⟨hacc, hsucceeds, hrefs⟩
        exact .intro hrow hacc hsucceeds (fun s hs ↦ (hpair s).mpr (hrefs s hs).1)
          fun s hs ↦ (hrefs s hs).2
      · intro h
        generalize hx : row.id = x at h
        cases h with
        | @intro row' hrow' hacc hsucceeds hbefore hrefs =>
          obtain rfl := hw.row_unique hrow hrow' hx
          exact ⟨hacc, hsucceeds, fun s hs ↦ ⟨(hpair s).mp (hbefore s hs), hrefs s hs⟩⟩
    have hleft'' : w.Left (fun y ↦ y ∈ done ++ [row.id] ∧ w.Removed script ids std y)
        (deleteNext script.db run (w.itemOf row)).world := by
      refine hleft'.congr fun y ↦ ?_
      rw [hremoved, List.mem_append, List.mem_singleton]
      constructor
      · rintro (h | ⟨rfl, h⟩)
        · exact ⟨Or.inl h.1, h.2⟩
        · exact ⟨Or.inr rfl, h⟩
      · rintro ⟨h | rfl, h'⟩
        · exact Or.inl ⟨h, h'⟩
        · exact Or.inr ⟨rfl, h'⟩
    have horder' : std = (done ++ [row.id]) ++ items.map (·.el.id) := by
      rw [horder]
      simp
    obtain ⟨issued, hrun, hiff⟩ :=
      ih (fun item hitem ↦ hitems item (List.mem_cons_of_mem _ hitem)) horder' hleft'' hanswered'
    have hhead := hleft.noOrphan_iff row.id
    rcases hissued with ⟨hacc, hissued⟩ | ⟨hacc, hissued⟩
    · refine ⟨(row.id, run.world) :: issued, ?_, ?_⟩
      · rw [List.foldl_cons, hrun, hissued]
        simp
      · simp only [List.map_cons, hid, List.forall_mem_cons, hiff, hhead, hpair, hacc, true_implies]
    · refine ⟨issued, ?_, ?_⟩
      · rw [List.foldl_cons, hrun, hissued]
      · simp only [List.map_cons, hid, List.forall_mem_cons, hiff, hacc, false_implies, true_and]

theorem mem_workList (hw : w.Forest) {item : ElementInfo} (h : item ∈ w.workList script ids) :
    item.el.id ∈ ids ∧ ∃ row ∈ w.assets, item = w.itemOf row := by
  obtain ⟨x, hx, hitem⟩ := List.mem_flatMap.mp h
  obtain ⟨-, row, hrow, rfl, rfl⟩ := mem_entry hw hitem
  exact ⟨hx, row, hrow, rfl⟩

theorem mem_workList_of_accepted (hw : w.Forest) {x : Nat} (h : w.Accepted script ids x) :
    x ∈ (w.workList script ids).map (·.el.id) := by
  obtain ⟨row, hrow, rfl⟩ := h.listed.found
  apply List.mem_map.mpr
  refine ⟨w.itemOf row, List.mem_flatMap.mpr ⟨row.id, h.requested, ?_⟩, rfl⟩
  rw [entry_of_listed hw hrow h.listed]
  exact List.mem_singleton_self _

theorem workList_nodup (hw : w.Forest) (hids : ids.Nodup) :
    ((w.workList script ids).map (·.el.id)).Nodup := by
  unfold workList
  induction ids with
  | nil => simp
  | cons x ids ih =>
    obtain ⟨hx, hids⟩ := List.nodup_cons.mp hids
    rw [List.flatMap_cons, List.map_append]
    refine List.nodup_append.mpr ⟨?_, ih hids, ?_⟩
    · by_cases hlisted : w.Listed script x
      · obtain ⟨row, hrow, rfl⟩ := hlisted.found
        rw [entry_of_listed hw hrow hlisted]
        exact List.nodup_singleton _
      · rw [entry_of_not_listed hlisted]
        exact List.nodup_nil
    · rintro a ha b hb rfl
      obtain ⟨item, hitem, rfl⟩ := List.mem_map.mp ha
      obtain ⟨item', hitem', heq⟩ := List.mem_map.mp hb
      rw [id_of_mem_entry hw hitem] at heq
      exact hx (heq ▸ (mem_workList hw hitem').1)

/-- The comparison is not irreflexive: it finds an asset before itself as soon as its parent is in
the work list. -/
theorem before_self {toDel : List ElementInfo} {item parent : ElementInfo}
    (hparent : parent ∈ toDel) (hid : parent.el.id = item.el.parentId) : before toDel item item = true := by
  obtain ⟨found, hfound⟩ : ∃ found, toDel.find? (·.el.id = item.el.parentId) = some found :=
    Option.isSome_iff_exists.mp (List.find?_isSome.mpr ⟨parent, hparent, by simpa using hid⟩)
  have hfid : found.el.id = item.el.parentId := by simpa using List.find?_some hfound
  obtain ⟨n, hlen⟩ : ∃ n, toDel.length = n + 1 :=
    Nat.exists_eq_succ_of_ne_zero (List.length_pos_of_mem hparent).ne'
  -- the first step climbs to the parent, the second one finds it
  simp [before, hlen, isAnyParent, hfound, hfid]

/-- Nothing is orphaned by a batch exactly if each asset that hangs on an accepted one is removed
before it. -/
theorem no_orphan_iff (std : StdSort) (hw : w.Forest) (hids : ids.Nodup) :
    ∃ run, deleteItems script.db std w ids = some run ∧
      ((∀ e ∈ run.issued, e.2.NoOrphan e.1) ↔ ∀ x y, w.Accepted script ids x → w.Dependent x y →
        [y, x].Sublist (w.order script ids std) ∧
          w.Removed script ids (w.order script ids std) y) := by
  have hnew : ∀ item ∈ ({} : Work).toDel, item.el.id ∉ ids := by simp
  obtain ⟨work, refusals, hwork, htoDel, hret, hstatus, -, hrefused⟩ :=
    foldlM_collect script hw (fun _ h ↦ h) hids hnew
  rw [List.nil_append] at htoDel hret
  have hperm := std.perm (before (w.workList script ids)) (w.workList script ids)
  have hids' := (hperm.map (·.el.id))
  have hanswered := answered_of_refused
    (fun item hitem ↦ (mem_workList hw (hperm.mem_iff.mp hitem)).1) hstatus hrefused
  -- nothing is gone at first
  have hleft : w.Left (fun y ↦ y ∈ [] ∧ w.Removed script ids (w.order script ids std) y)
      ({ world := w, ret := refusals } : BatchRun AssetStore).world :=
    (left_refl w).congr fun y ↦ by simp
  obtain ⟨issued, hissued, hiff⟩ := foldl_deleteNext script hw
    (fun item hitem ↦ (mem_workList hw (hperm.mem_iff.mp hitem)).2) rfl
    (hids'.nodup_iff.mpr (workList_nodup hw hids)) hleft hanswered
  refine ⟨(std.sort (before work.toDel) work.toDel).foldl (deleteNext script.db)
    { world := w, ret := work.ret }, ?_, ?_⟩
  · rw [deleteItems, hwork]
    rfl
  · rw [htoDel, hret, show ids.flatMap (w.entry script) = w.workList script ids from rfl, hissued,
      List.nil_append, hiff]
    constructor
    · intro h x y hacc
      exact h x (hids'.mem_iff.mpr (mem_workList_of_accepted hw hacc)) hacc y
    · intro h x _ hacc y
      exact h x y hacc

/-- A rack `2` with a feed `3`, which powers the server `4` in another place. -/
def rackWithFeed : AssetStore where
  assets := [⟨1, AssetType.datacenter, 0, "datacenter-1", 0⟩, ⟨2, AssetType.rack, 0, "rack-2", 1⟩,
    ⟨3, AssetType.device, 0, "feed-3", 2⟩, ⟨4, AssetType.device, 0, "server-4", 1⟩]
  links := [(3, 4)]

theorem rackWithFeed_forest : rackWithFeed.Forest := by
  refine ⟨by decide, fun x hx ↦ ?_⟩
  -- a child has a greater id than its parent
  have hrows : ∀ row ∈ rackWithFeed.assets, row.parentId < row.id := by decide
  have hlt : ∀ a b, TransGen rackWithFeed.Child a b → a < b := by
    intro a b h
    induction h with
    | single h =>
      obtain ⟨row, hrow, rfl, rfl⟩ := h
      exact hrows row hrow
    | tail _ h ih =>
      obtain ⟨row, hrow, rfl, rfl⟩ := h
      exact ih.trans (hrows row hrow)
  exact lt_irrefl x (hlt x x hx)

theorem rackWithFeed_links : ∀ x, ¬ TransGen (fun a b ↦ (a, b) ∈ rackWithFeed.links) x x := by
  intro x hx
  have hends : ∀ a b, TransGen (fun a b ↦ (a, b) ∈ rackWithFeed.links) a b → a = 3 ∧ b = 4 := by
    intro a b h
    induction h with
    | single h => simpa [rackWithFeed] using h
    | tail _ h ih => simp [rackWithFeed, ih.2] at h
  have := hends x x hx
  omega

theorem no_orphan_iff_rackWithFeed :
    ∃ run, deleteItems (Script.db {}) inOrder rackWithFeed [4, 3, 2] = some run ∧
      ((∀ e ∈ run.issued, e.2.NoOrphan e.1) ↔ ∀ x y, rackWithFeed.Accepted {} [4, 3, 2] x →
        rackWithFeed.Dependent x y → [y, x].Sublist (rackWithFeed.order {} [4, 3, 2] inOrder) ∧
          rackWithFeed.Removed {} [4, 3, 2] (rackWithFeed.order {} [4, 3, 2] inOrder) y) :=
  no_orphan_iff inOrder rackWithFeed_forest (by decide)

/-- The feed is refused, as it powers a server that stays; its rack is deleted all the same. -/
theorem refused_feed_is_orphaned :
    rackWithFeed.Forest ∧ (∀ x, ¬ TransGen (fun a b ↦ (a, b) ∈ rackWithFeed.links) x x) ∧
      ∃ run, deleteItems (Script.db {}) inOrder rackWithFeed [3, 2] = some run ∧
        ¬ ∀ e ∈ run.issued, e.2.NoOrphan e.1 := by
  refine ⟨rackWithFeed_forest, rackWithFeed_links, ?_⟩
  have hrun : (deleteItems (Script.db {}) inOrder rackWithFeed [3, 2]).map (·.issued) =
      some [(2, rackWithFeed)] := by decide
  obtain ⟨run, hrun, hissued⟩ := Option.map_eq_some_iff.mp hrun
  refine ⟨run, hrun, fun h ↦ ?_⟩
  rw [hissued] at h
  exact h (2, rackWithFeed) (List.mem_singleton_self _) 3
    ⟨⟨3, AssetType.device, 0, "feed-3", 2⟩, by decide, rfl, Or.inl rfl⟩

end AssetStore

end FtyRest.Shared
