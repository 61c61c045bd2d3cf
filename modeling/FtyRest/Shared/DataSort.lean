import FtyRest.Shared.DataRequest
import Mathlib.Order.RelClasses

/-!
# The order of a batch of deletions

The comparison that `delete_item (ids, element_info)` hands to `std::sort`, on the work lists that
are filled from a forest of assets.
-/

namespace FtyRest.Shared

open Db Relation

/-- In a strict weak order, what is between two elements is told apart from one of them. -/
theorem isOrderConnected_of_isStrictWeakOrder {α : Type} (r : α → α → Prop)
    [IsStrictWeakOrder α r] : IsOrderConnected α r where
  conn a b c hac := by
    by_contra hnot
    push Not at hnot
    obtain ⟨hab, hbc⟩ := hnot
    have hba : ¬ r b a := fun hba ↦ hbc (IsTrans.trans b a c hba hac)
    have hcb : ¬ r c b := fun hcb ↦ hab (IsTrans.trans a c b hac hcb)
    exact (IsStrictWeakOrder.incomp_trans a b c ⟨hab, hba⟩ ⟨hbc, hcb⟩).1 hac

namespace AssetStore

variable {w : AssetStore} {script : Script} {ids : List Nat}

/-! ## The work list -/

/-- `x` gets into the work list. -/
def InWorkList (w : AssetStore) (script : Script) (ids : List Nat) (x : Nat) : Prop :=
  x ∈ ids ∧ w.Listed script x

/-- A request that comes twice does not change the work list any more. -/
theorem request_again {db : AssetDb AssetStore} {info : ElementInfo} {toDel toDel' : List ElementInfo}
    {r : Except Stop Unit} (hold : toDel.any (·.el.id = info.el.id) = true)
    (h : request db w ids [] info = (toDel', r)) (hlisted : toDel' ≠ []) :
    request db w ids toDel info = (toDel, r) := by
  unfold request at h ⊢
  dsimp only at h ⊢
  cases hchildren : collectChildren (db.selectAssets w) ((db.selectAssets w).length + 1)
      info.el.id [] with
  | error stop =>
    rw [hchildren] at h
    cases h
    exact absurd rfl hlisted
  | ok children =>
    rw [hchildren] at h
    dsimp only at h ⊢
    cases hlinks : selectAnyLinks db w info with
    | error e =>
      rw [hlinks] at h
      cases h
      exact absurd rfl hlisted
    | ok links =>
      rw [hlinks] at h
      dsimp only at h ⊢
      -- only the list differs, and the asset is on it already
      have hadd : checkAndAddInfo toDel { info with links } = .ok toDel := by
        unfold checkAndAddInfo
        rw [if_pos hold]
      rw [hadd]
      cases hfirst : checkAndAddInfo [] { info with links } with
      | error e =>
        rw [hfirst] at h
        cases h
        exact absurd rfl hlisted
      | ok first =>
        rw [hfirst] at h
        dsimp only at h ⊢
        split at h
        · rename_i hne
          rw [if_pos hne]
          cases h
          rfl
        · rename_i hne
          rw [if_neg hne]
          split at h
          · rename_i hne
            rw [if_pos hne]
            cases h
            rfl
          · rename_i hne
            rw [if_neg hne]
            cases h
            rfl

variable (script) in
/-- One round of the first loop, also for an id that was requested before. -/
theorem collect_mem (hw : w.Forest) {x : Nat} (hreq : x ∈ ids) {work : Work}
    (hold : ∀ item ∈ work.toDel, item ∈ w.entry script item.el.id) :
    ∃ work', collect script.db w ids work x = some work' ∧
      ∀ item, item ∈ work'.toDel ↔ item ∈ work.toDel ∨ item ∈ w.entry script x := by
  -- an id that is asked for twice is checked twice, and listed once
  by_cases hnew : ∀ item ∈ work.toDel, item.el.id ≠ x
  · obtain ⟨work', hwork, htoDel, -⟩ := collect_spec script hw hreq hnew
    exact ⟨work', hwork, fun item ↦ by rw [htoDel, List.mem_append]⟩
  · push Not at hnew
    obtain ⟨item, hitem, rfl⟩ := hnew
    obtain ⟨hlisted, row, hrow, hid, rfl⟩ := mem_entry hw (hold item hitem)
    have hentry := entry_of_listed hw hrow hlisted
    have hnone : ∀ item ∈ ([] : List ElementInfo), item.el.id ≠ row.id := by simp
    obtain ⟨r, hr, hchecked⟩ := request_spec script hw hrow hreq hnone
    have hany : work.toDel.any (·.el.id = row.info.el.id) = true :=
      List.any_eq_true.mpr ⟨w.itemOf row, hitem, by simp [itemOf]⟩
    have hne : [] ++ w.entry script row.id ≠ [] := by
      rw [hentry]
      simp
    have hagain : request script.db w ids work.toDel { el := row.info.el } = (work.toDel, r) :=
      request_again hany hr hne
    have hentry' : ∀ item, item ∈ work.toDel ↔
        item ∈ work.toDel ∨ item ∈ w.entry script row.id := by
      intro item
      rw [hentry, List.mem_singleton]
      exact (or_iff_left_of_imp fun h ↦ h ▸ hitem).symm
    unfold collect
    rw [show (w.itemOf row).el.id = row.id from rfl,
      selectAssetElementWebById_of_mem script hw hrow]
    dsimp only
    rw [element_of_row script row, hagain]
    cases r with
    | ok u => exact ⟨_, rfl, hentry'⟩
    | error stop =>
      cases stop with
      | diverges => exact hchecked.elim
      | check e => exact ⟨_, rfl, hentry'⟩

variable (script) in
theorem foldlM_collect_mem (hw : w.Forest) {xs : List Nat} (hxs : ∀ x ∈ xs, x ∈ ids) {work : Work}
    (hold : ∀ item ∈ work.toDel, item ∈ w.entry script item.el.id) :
    ∃ work', xs.foldlM (collect script.db w ids) work = some work' ∧
      ∀ item, item ∈ work'.toDel ↔
        item ∈ work.toDel ∨ ∃ x ∈ xs, item ∈ w.entry script x := by
  induction xs generalizing work with
  | nil => exact ⟨work, rfl, by simp⟩
  | cons x xs ih =>
    obtain ⟨work', hwork, hmem⟩ := collect_mem script hw (hxs x List.mem_cons_self) hold
    have hold' : ∀ item ∈ work'.toDel, item ∈ w.entry script item.el.id := by
      intro item hitem
      rcases (hmem item).mp hitem with h | h
      · exact hold item h
      · rwa [id_of_mem_entry hw h]
    obtain ⟨work'', hrun, hmem'⟩ := ih (fun y hy ↦ hxs y (List.mem_cons_of_mem x hy)) hold'
    refine ⟨work'', ?_, fun item ↦ ?_⟩
    · rw [List.foldlM_cons, hwork]
      exact hrun
    · simp only [hmem', hmem, List.mem_cons, exists_eq_or_imp, or_assoc]

variable (script ids) in
/-- The work list holds the assets that get into it. -/
theorem foldlM_collect_inWorkList (hw : w.Forest) :
    ∃ work, ids.foldlM (collect script.db w ids) {} = some work ∧
      ∀ item, item ∈ work.toDel ↔
        ∃ row ∈ w.assets, w.InWorkList script ids row.id ∧ item = w.itemOf row := by
  have hnone : ∀ item ∈ ({} : Work).toDel, item ∈ w.entry script item.el.id := by simp
  have hids : ∀ x ∈ ids, x ∈ ids := fun _ h ↦ h
  obtain ⟨work, hwork, hmem⟩ := foldlM_collect_mem script hw hids hnone
  refine ⟨work, hwork, fun item ↦ ?_⟩
  rw [hmem]
  constructor
  · rintro (h | ⟨x, hx, hitem⟩)
    · exact absurd h List.not_mem_nil
    · obtain ⟨hlisted, row, hrow, rfl, heq⟩ := mem_entry hw hitem
      exact ⟨row, hrow, ⟨hx, hlisted⟩, heq⟩
  · rintro ⟨row, hrow, ⟨hx, hlisted⟩, rfl⟩
    refine Or.inr ⟨row.id, hx, ?_⟩
    rw [entry_of_listed hw hrow hlisted]
    exact List.mem_singleton_self _

/-! ## The comparison -/

/-- Nothing is a child when its parent is not in the work list. -/
theorem isAnyParent_eq_false {toDel : List ElementInfo} {item p : ElementInfo} (fuel : Nat)
    (hparent : ∀ q ∈ toDel, q.el.id ≠ item.el.parentId) (hp : p ∈ toDel) :
    isAnyParent toDel item fuel p = false := by
  induction fuel generalizing p with
  | zero => rfl
  | succ fuel ih =>
    unfold isAnyParent
    rw [if_neg (hparent p hp).symm]
    cases hfind : toDel.find? (·.el.id = p.el.parentId) with
    | none => rfl
    | some found => exact ih (List.mem_of_find?_eq_some hfind)

theorem mem_links_itemOf {row : AssetRow} {y : Nat} :
    y ∈ (w.itemOf row).links ↔ (row.id, y) ∈ w.links := by
  simp only [itemOf, List.mem_map, List.mem_filter, decide_eq_true_eq]
  constructor
  · rintro ⟨link, ⟨hlink, hsrc⟩, rfl⟩
    exact hsrc ▸ hlink
  · intro h
    exact ⟨(row.id, y), ⟨h, rfl⟩, rfl⟩

/-- Links that go round are left out, so the test of the opposite link has no effect. -/
theorem isLinked_iff (hlinks : ∀ x, ¬ TransGen (fun a b ↦ (a, b) ∈ w.links) x x)
    (l r : AssetRow) : isLinked (w.itemOf l) (w.itemOf r) = true ↔ (r.id, l.id) ∈ w.links := by
  unfold isLinked
  split
  · rename_i hback
    have hback : (l.id, r.id) ∈ w.links := mem_links_itemOf.mp hback
    constructor
    · intro h
      cases h
    · intro h
      exact absurd ((TransGen.single hback).tail h) (hlinks l.id)
  · rw [decide_eq_true_eq]
    exact mem_links_itemOf

/-- The comparison is a strict weak order exactly if no asset of the work list is located in another
one, and every asset of it is powered by the source or powers the destination of each link
inside it. -/
theorem before_strictWeakOrder_iff (hw : w.Forest)
    (hlinks : ∀ x, ¬ TransGen (fun a b ↦ (a, b) ∈ w.links) x x) (script : Script)
    (ids : List Nat) :
    ∃ work, ids.foldlM (collect script.db w ids) {} = some work ∧
      (IsStrictWeakOrder {item // item ∈ work.toDel} (fun l r ↦ before work.toDel l r = true) ↔
        (∀ x y, w.InWorkList script ids x → w.InWorkList script ids y → ¬ w.Child x y) ∧
          ∀ x y z, w.InWorkList script ids x → w.InWorkList script ids y →
            w.InWorkList script ids z → (x, z) ∈ w.links → (x, y) ∈ w.links ∨ (y, z) ∈ w.links) := by
  obtain ⟨work, hwork, hmem⟩ := foldlM_collect_inWorkList script ids hw
  refine ⟨work, hwork, ?_⟩
  have hitem {x : Nat} (hx : w.InWorkList script ids x) :
      ∃ item ∈ work.toDel, item.el.id = x := by
    obtain ⟨row, hrow, rfl⟩ := hx.2.found
    exact ⟨w.itemOf row, (hmem _).mpr ⟨row, hrow, hx, rfl⟩, rfl⟩
  have hin {item : ElementInfo} (h : item ∈ work.toDel) :
      w.InWorkList script ids item.el.id := by
    obtain ⟨row, -, hin, rfl⟩ := (hmem item).mp h
    exact hin
  -- without parents, only the links are left
  have hbefore (hparent : ∀ x y, w.InWorkList script ids x → w.InWorkList script ids y →
      ¬ w.Child x y) {l r : ElementInfo} (hl : l ∈ work.toDel) (hr : r ∈ work.toDel) :
      before work.toDel l r = true ↔ (r.el.id, l.el.id) ∈ w.links := by
    obtain ⟨rl, hrl, hlin, rfl⟩ := (hmem l).mp hl
    have hnot : ∀ q ∈ work.toDel, q.el.id ≠ (w.itemOf rl).el.parentId := by
      intro q hq heq
      exact hparent q.el.id rl.id (hin hq) hlin ⟨rl, hrl, rfl, heq.symm⟩
    unfold before
    rw [isAnyParent_eq_false _ hnot hr, Bool.false_or]
    obtain ⟨rr, -, -, rfl⟩ := (hmem r).mp hr
    exact isLinked_iff hlinks rl rr
  constructor
  · intro horder
    have hparent : ∀ x y, w.InWorkList script ids x → w.InWorkList script ids y →
        ¬ w.Child x y := by
      rintro x y hx hy ⟨row, hrow, rfl, rfl⟩
      obtain ⟨parent, hparent, hid⟩ := hitem hx
      have hrow : w.itemOf row ∈ work.toDel := (hmem _).mpr ⟨row, hrow, hy, rfl⟩
      have hself : before work.toDel (w.itemOf row) (w.itemOf row) = true :=
        before_self hparent hid
      exact horder.irrefl ⟨w.itemOf row, hrow⟩ hself
    refine ⟨hparent, ?_⟩
    intro x y z hx hy hz hlink
    obtain ⟨ix, hix, rfl⟩ := hitem hx
    obtain ⟨iy, hiy, rfl⟩ := hitem hy
    obtain ⟨iz, hiz, rfl⟩ := hitem hz
    have hconn := (isOrderConnected_of_isStrictWeakOrder
      (fun l r : {item // item ∈ work.toDel} ↦ before work.toDel l r = true)).conn
      ⟨iz, hiz⟩ ⟨iy, hiy⟩ ⟨ix, hix⟩ ((hbefore hparent hiz hix).mpr hlink)
    rcases hconn with h | h
    · exact Or.inr ((hbefore hparent hiz hiy).mp h)
    · exact Or.inl ((hbefore hparent hiy hix).mp h)
  · rintro ⟨hparent, hconn⟩
    have hasymm : Std.Asymm
        (fun l r : {item // item ∈ work.toDel} ↦ before work.toDel l r = true) := by
      constructor
      intro l r hlr hrl
      have hlr := (hbefore hparent l.2 r.2).mp hlr
      have hrl := (hbefore hparent r.2 l.2).mp hrl
      exact hlinks l.1.el.id ((TransGen.single hrl).tail hlr)
    have hconnected : IsOrderConnected {item // item ∈ work.toDel}
        (fun l r ↦ before work.toDel l r = true) := by
      constructor
      intro a b c hac
      have hlink := (hbefore hparent a.2 c.2).mp hac
      rcases hconn _ _ _ (hin c.2) (hin b.2) (hin a.2) hlink with h | h
      · exact Or.inr ((hbefore hparent b.2 c.2).mpr h)
      · exact Or.inl ((hbefore hparent a.2 b.2).mpr h)
    exact isStrictWeakOrder_of_isOrderConnected

theorem before_strictWeakOrder_iff_feed :
    ∃ work, [3, 4].foldlM (collect (Script.db {}) rackWithFeed [3, 4]) {} = some work ∧
      (IsStrictWeakOrder {item // item ∈ work.toDel} (fun l r ↦ before work.toDel l r = true) ↔
        (∀ x y, rackWithFeed.InWorkList {} [3, 4] x → rackWithFeed.InWorkList {} [3, 4] y →
            ¬ rackWithFeed.Child x y) ∧
          ∀ x y z, rackWithFeed.InWorkList {} [3, 4] x → rackWithFeed.InWorkList {} [3, 4] y →
            rackWithFeed.InWorkList {} [3, 4] z → (x, z) ∈ rackWithFeed.links →
              (x, y) ∈ rackWithFeed.links ∨ (y, z) ∈ rackWithFeed.links) :=
  before_strictWeakOrder_iff rackWithFeed_forest rackWithFeed_links {} [3, 4]

/-- A feed that is deleted together with its rack comes before itself. -/
theorem feed_before_itself :
    rackWithFeed.Forest ∧ (∀ x, ¬ TransGen (fun a b ↦ (a, b) ∈ rackWithFeed.links) x x) ∧
      ∃ work, [3, 2].foldlM (collect (Script.db {}) rackWithFeed [3, 2]) {} = some work ∧
        ¬ IsStrictWeakOrder {item // item ∈ work.toDel}
          (fun l r ↦ before work.toDel l r = true) := by
  refine ⟨rackWithFeed_forest, rackWithFeed_links, ?_⟩
  have hrun : ([3, 2].foldlM (collect (Script.db {}) rackWithFeed [3, 2]) {}).map (·.toDel) =
      some [⟨⟨3, AssetType.device, 0, "feed-3", 2, ""⟩, [4]⟩,
        ⟨⟨2, AssetType.rack, 0, "rack-2", 1, ""⟩, []⟩] := by decide
  obtain ⟨work, hwork, htoDel⟩ := Option.map_eq_some_iff.mp hrun
  refine ⟨work, hwork, fun horder ↦ ?_⟩
  have hself : ∃ item ∈ work.toDel, before work.toDel item item = true := by
    rw [htoDel]
    exact ⟨_, List.mem_cons_self, by decide⟩
  obtain ⟨item, hitem, hself⟩ := hself
  exact horder.irrefl ⟨item, hitem⟩ hself

end AssetStore

end FtyRest.Shared
