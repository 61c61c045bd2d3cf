import FtyRest.Shared.DataBatch

/-!
# The children of an asset

What `collectChildren` of `shared/data.cc` returns: the assets located in an asset, at any depth,
once each, and each one before the asset in which it is located.
-/

namespace FtyRest.Shared.AssetStore

open Db Relation

variable {w : AssetStore} {ids : List ElementInfo}

/-- The order in which the children are collected: the rows of assets, once each, behind all the
assets that are located in them. -/
structure PostOrder (w : AssetStore) (ids : List ElementInfo) : Prop where
  nodup : (ids.map (·.el.id)).Nodup
  isRow : ∀ item ∈ ids, ∃ row ∈ w.assets, item = row.info
  closed : ∀ before item after, ids = before ++ item :: after →
    ∀ c, w.Child item.el.id c → ∃ child ∈ before, child.el.id = c

theorem postOrder_nil : PostOrder w [] where
  nodup := List.nodup_nil
  isRow := fun _ h ↦ absurd h List.not_mem_nil
  closed := by
    intro before item after h
    exact absurd h.symm (by simp)

theorem PostOrder.concat (h : PostOrder w ids) {row : AssetRow} (hrow : row ∈ w.assets)
    (hnew : ∀ item ∈ ids, item.el.id ≠ row.id)
    (hchildren : ∀ c, w.Child row.id c → ∃ child ∈ ids, child.el.id = c) :
    PostOrder w (ids ++ [row.info]) where
  nodup := by
    rw [List.map_append, List.nodup_append]
    refine ⟨h.nodup, List.nodup_singleton _, ?_⟩
    intro id hid other hother heq
    obtain ⟨item, hitem, rfl⟩ := List.mem_map.mp hid
    rw [List.map_singleton, List.mem_singleton] at hother
    exact hnew item hitem (heq.trans hother)
  isRow := by
    intro item hitem
    rcases List.mem_append.mp hitem with hitem | hitem
    · exact h.isRow item hitem
    · exact ⟨row, hrow, List.mem_singleton.mp hitem⟩
  closed := by
    intro before item after heq c hc
    -- the item is the new row, or it has been there
    rcases List.eq_nil_or_concat' after with rfl | ⟨after, last, rfl⟩
    · obtain ⟨rfl, hitem⟩ := List.append_inj' heq rfl
      rw [← List.singleton_inj.mp hitem] at hc
      exact hchildren c hc
    · rw [← List.cons_append, ← List.append_assoc] at heq
      obtain ⟨hids, -⟩ := List.append_inj' heq rfl
      exact h.closed before item after hids c hc

/-- An invariant of the steps holds of what a fold returns. -/
theorem foldlM_ok_induction {ε α β : Type} {f : β → α → Except ε β} {I : β → Prop} {xs : List α}
    {b b' : β} (hstep : ∀ b x b', x ∈ xs → I b → f b x = .ok b' → I b') (hb : I b)
    (h : xs.foldlM f b = .ok b') : I b' := by
  induction xs generalizing b with
  | nil =>
    cases h
    exact hb
  | cons x xs ih =>
    rw [List.foldlM_cons] at h
    cases hx : f b x with
    | error e =>
      rw [hx] at h
      cases h
    | ok next =>
      rw [hx] at h
      exact ih (fun b y b' hy ↦ hstep b y b' (List.mem_cons_of_mem x hy))
        (hstep b x next List.mem_cons_self hb hx) h

theorem checkAndAddInfo_postOrder {row : AssetRow} (hrow : row ∈ w.assets) (h : PostOrder w ids)
    (hchildren : ∀ c, w.Child row.id c → ∃ child ∈ ids, child.el.id = c) {ids' : List ElementInfo}
    (hadd : (checkAndAddInfo ids row.info).mapError Stop.check = .ok ids') : PostOrder w ids' := by
  unfold checkAndAddInfo at hadd
  split at hadd
  · cases hadd
    exact h
  · rename_i hany
    split at hadd
    · cases hadd
    · cases hadd
      apply h.concat hrow _ hchildren
      intro item hitem hid
      exact hany (List.any_eq_true.mpr ⟨item, hitem, decide_eq_true hid⟩)

/-- Collecting keeps the order, whatever has been collected before. -/
theorem collectChildren_postOrder (hw : w.Forest) {fuel id : Nat} {ids ids' : List ElementInfo}
    (hfuel : w.depth id < fuel) (hrc : w.NoRc0 ids) (horder : PostOrder w ids)
    (h : collectChildren w.assets fuel id ids = .ok ids') : PostOrder w ids' := by
  -- the invariant of the loop over the rows needs the one of the calls for the children
  induction fuel generalizing id ids ids' with
  | zero => exact absurd hfuel (Nat.not_lt_zero _)
  | succ fuel ih =>
    unfold collectChildren at h
    suffices hboth : w.NoRc0 ids' ∧ PostOrder w ids' from hboth.2
    refine foldlM_ok_induction (I := fun ids ↦ w.NoRc0 ids ∧ PostOrder w ids) ?_ ⟨hrc, horder⟩ h
    rintro collected row next hrow ⟨hrc, horder⟩ hnext
    split at hnext
    · rename_i hparent
      have hdepth : w.depth row.id < fuel := by
        have hlt := hw.depth_lt ⟨row, hrow, rfl, hparent.symm⟩
        omega
      have hbelow := collectChildren_spec hw hdepth hrc
      cases hc : collectChildren w.assets fuel row.id collected with
      | error stop =>
        rw [hc] at hnext
        cases hnext
      | ok below =>
        rw [hc] at hnext hbelow
        change (checkAndAddInfo below row.info).mapError Stop.check = .ok next at hnext
        have hself := checkAndAddInfo_spec hw hrow (hbelow.noRc0 hrc)
        rw [hnext] at hself
        refine ⟨hself.noRc0 (hbelow.noRc0 hrc), ?_⟩
        -- all that is located in the row has been collected by the call
        apply checkAndAddInfo_postOrder hrow (ih hdepth hrc horder hc) _ hnext
        intro c hchild
        exact (hbelow.2 c).mpr (.inr (.single hchild))
    · cases hnext
      exact ⟨hrc, horder⟩

/-- Either the default rack controller is located in the asset, or what is located in it is
returned, once each, and before the asset in which it is located. -/
theorem collectChildren_descendants (hw : w.Forest) (id : Nat) {fuel : Nat}
    (hfuel : w.assets.length < fuel) :
    (∃ e y, collectChildren w.assets fuel id [] = .error (.check e) ∧ TransGen w.Child id y ∧
      w.IsRc0 y) ∨
    ∃ ids, collectChildren w.assets fuel id [] = .ok ids ∧
      (∀ y, TransGen w.Child id y → ¬ w.IsRc0 y) ∧
      (ids.map (·.el.id)).Nodup ∧
      (∀ item, item ∈ ids ↔ ∃ row ∈ w.assets, TransGen w.Child id row.id ∧ item = row.info) ∧
      ∀ before parent after, ids = before ++ parent :: after →
        ∀ child ∈ ids, w.Child parent.el.id child.el.id → child ∈ before := by
  -- the fuel is more than the number of assets, and no path down is longer
  have hdepth : w.depth id < fuel := Nat.lt_of_le_of_lt (w.depth_le id) hfuel
  have hrc : w.NoRc0 [] := fun _ h ↦ absurd h List.not_mem_nil
  have hspec := collectChildren_spec hw hdepth hrc
  cases h : collectChildren w.assets fuel id [] with
  | error stop =>
    rw [h] at hspec
    cases stop with
    | diverges => exact hspec.elim
    | check e =>
      obtain ⟨y, hy, hrcy⟩ := hspec
      exact .inl ⟨e, y, rfl, hy, hrcy⟩
  | ok ids =>
    rw [h] at hspec
    have horder := collectChildren_postOrder hw hdepth hrc postOrder_nil h
    refine .inr ⟨ids, rfl, hspec.1, horder.nodup, ?_, ?_⟩
    · intro item
      constructor
      · intro hitem
        obtain ⟨row, hrow, rfl⟩ := horder.isRow item hitem
        rcases (hspec.2 row.id).mp ⟨row.info, hitem, rfl⟩ with ⟨_, hnil, -⟩ | hbelow
        · exact absurd hnil List.not_mem_nil
        · exact ⟨row, hrow, hbelow, rfl⟩
      · rintro ⟨row, hrow, hbelow, rfl⟩
        obtain ⟨item, hitem, hid⟩ := (hspec.2 row.id).mpr (.inr hbelow)
        obtain ⟨row', hrow', rfl⟩ := horder.isRow item hitem
        rwa [← hw.row_unique hrow' hrow hid]
    · -- children are listed in front of their parent
      intro before parent after heq child hchild hparent
      obtain ⟨child', hbefore, hid⟩ := horder.closed before parent after heq _ hparent
      have hmem : child' ∈ ids := by
        rw [heq]
        exact List.mem_append_left _ hbefore
      rwa [← List.inj_on_of_nodup_map horder.nodup hmem hchild hid]

theorem collectChildren_descendants_rack :
    (∃ e y, collectChildren rackWithFeed.assets 10 1 [] = .error (.check e) ∧
      TransGen rackWithFeed.Child 1 y ∧ rackWithFeed.IsRc0 y) ∨
    ∃ ids, collectChildren rackWithFeed.assets 10 1 [] = .ok ids ∧
      (∀ y, TransGen rackWithFeed.Child 1 y → ¬ rackWithFeed.IsRc0 y) ∧
      (ids.map (·.el.id)).Nodup ∧
      (∀ item, item ∈ ids ↔
        ∃ row ∈ rackWithFeed.assets, TransGen rackWithFeed.Child 1 row.id ∧ item = row.info) ∧
      ∀ before parent after, ids = before ++ parent :: after →
        ∀ child ∈ ids, rackWithFeed.Child parent.el.id child.el.id → child ∈ before :=
  collectChildren_descendants rackWithFeed_forest 1 (by decide)

end FtyRest.Shared.AssetStore
