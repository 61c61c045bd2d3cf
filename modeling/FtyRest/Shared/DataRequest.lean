import FtyRest.Shared.DataBatch

/-!
# What a batch of deletions calls and answers

The deletions that `delete_item (ids, element_info)` issues, and its replies to the requested ids.
-/

namespace FtyRest.Shared

open Db Relation

/-- The asset that is to be deleted. -/
def DeleteCall.target : DeleteCall → Nat
  | .dcRoomRowRack id => id
  | .group id => id
  | .device id _ => id

section

variable {σ : Type} {db : AssetDb σ} {w : σ} {id typeId : Nat} {status : String}
  {item : ElementInfo}

variable (db w id typeId status) in
theorem target_of_persistDelete :
    ∀ call ∈ (persistDelete db w id typeId status).2.2, call.target = id := by
  unfold persistDelete
  split
  · simp [DeleteCall.target]
  · split
    · simp [DeleteCall.target]
    · split
      · split
        · split <;> simp [DeleteCall.target]
        · simp [DeleteCall.target]
      · simp

/-- A reply comes from a deletion. -/
theorem persistDelete_replies {reply : DbReply}
    (h : (persistDelete db w id typeId status).2.1 = some (.ok reply)) :
    (persistDelete db w id typeId status).2.2 ≠ [] := by
  unfold persistDelete at h ⊢
  split
  · simp
  · split
    · simp
    · split
      · split
        · -- without its JSON the device is not deleted
          cases hjson : db.getJsonAsset w id with
          | error what => simp_all
          | ok assetJson => simp
        · simp
      · simp_all

variable (db w item) in
/-- Without a deletion, an error is thrown. -/
theorem deleteAsset_calls :
    (∀ call ∈ (deleteAsset db w item).2.2, call.target = item.el.id) ∧
      ((deleteAsset db w item).2.2 = [] → ∃ e, (deleteAsset db w item).2.1 = .error e) := by
  unfold deleteAsset
  by_cases href : db.countKeytag w "logical_asset" item.el.name > 0
  · rw [if_pos href]
    exact ⟨by simp, fun _ ↦ ⟨_, rfl⟩⟩
  · rw [if_neg href]
    have htarget := target_of_persistDelete db w item.el.id item.el.typeId item.el.status
    rcases hdelete : persistDelete db w item.el.id item.el.typeId item.el.status with
      ⟨w', _ | ⟨what | reply⟩, calls⟩
    · rw [hdelete] at htarget
      exact ⟨htarget, fun _ ↦ ⟨_, rfl⟩⟩
    · rw [hdelete] at htarget
      exact ⟨htarget, fun _ ↦ ⟨_, rfl⟩⟩
    · rw [hdelete] at htarget
      have hcalls := persistDelete_replies (congrArg (·.2.1) hdelete)
      rw [hdelete] at hcalls
      exact ⟨htarget, fun hnil ↦ absurd hnil hcalls⟩

end

/-- One round of the second loop, on an item without an answer. -/
theorem deleteNext_answers {σ : Type} (db : AssetDb σ) {run : BatchRun σ} {item : ElementInfo}
    (h : (run.ret.find? (·.1 = item.el.id)).all (·.2.status ≠ 0) = true) :
    ∃ (reply : DbReply) (calls : List DeleteCall),
      (deleteNext db run item).ret = run.ret ++ [(item.el.id, reply)] ∧
      (deleteNext db run item).calls = run.calls ++ calls ∧
      (∀ call ∈ calls, call.target = item.el.id) ∧ (calls = [] → reply.status = 0) := by
  have ⟨htarget, hnone⟩ := deleteAsset_calls db run.world item
  unfold deleteNext
  rw [if_pos h]
  rcases hdelete : deleteAsset db run.world item with ⟨w, e | reply, calls⟩
  · rw [hdelete] at htarget
    exact ⟨e.answ, calls, rfl, rfl, htarget, fun _ ↦ rfl⟩
  · rw [hdelete] at htarget hnone
    refine ⟨reply, calls, rfl, rfl, htarget, ?_⟩
    intro hnil
    have ⟨e, he⟩ := hnone hnil
    cases he

namespace AssetStore

variable {w : AssetStore} {script : Script} {ids : List Nat}

open Classical in
variable (script) in
/-- The second loop answers the accepted ids, one by one, and deletes nothing else. -/
theorem foldl_deleteNext_answers {items : List ElementInfo} (run : BatchRun AssetStore)
    (hnodup : (items.map (·.el.id)).Nodup) (hanswered : w.Answered script ids items run.ret) :
    ∃ (answers : List (Nat × DbReply)) (calls : List DeleteCall),
      (items.foldl (deleteNext script.db) run).ret = run.ret ++ answers ∧
      (items.foldl (deleteNext script.db) run).calls = run.calls ++ calls ∧
      answers.map (·.1) = (items.map (·.el.id)).filter (w.Accepted script ids) ∧
      (∀ call ∈ calls, call.target ∈ answers.map (·.1)) ∧
      ∀ p ∈ answers, (∀ call ∈ calls, call.target ≠ p.1) → p.2.status = 0 := by
  induction items generalizing run with
  | nil => exact ⟨[], [], by simp, by simp, rfl, by simp, by simp⟩
  | cons item items ih =>
    rw [List.map_cons] at hnodup
    obtain ⟨hnew, hnodup⟩ := List.nodup_cons.mp hnodup
    have hself := hanswered item List.mem_cons_self
    rw [List.foldl_cons]
    by_cases hacc : w.Accepted script ids item.el.id
    · -- its answer is new, so which of the other items are answered does not change
      obtain ⟨reply, calls, hret, hcalls, htarget, hnone⟩ :=
        deleteNext_answers script.db (hself.mpr hacc)
      have hanswered' : w.Answered script ids items (deleteNext script.db run item).ret := by
        rw [hret]
        exact hanswered.tail hnew reply
      obtain ⟨answers, calls', hret', hcalls', hids, htarget', hnone'⟩ := ih _ hnodup hanswered'
      refine ⟨(item.el.id, reply) :: answers, calls ++ calls', ?_, ?_, ?_, ?_, ?_⟩
      · rw [hret', hret]
        simp
      · rw [hcalls', hcalls]
        simp
      · simp [hids, hacc]
      · intro call hcall
        rw [List.map_cons]
        rcases List.mem_append.mp hcall with hcall | hcall
        · rw [htarget call hcall]
          exact List.mem_cons_self
        · exact List.mem_cons_of_mem _ (htarget' call hcall)
      · intro p hp hno
        have hno' : ∀ call ∈ calls', call.target ≠ p.1 :=
          fun call hcall ↦ hno call (List.mem_append_right calls hcall)
        rcases List.mem_cons.mp hp with rfl | hp
        · -- its own deletion would be for it
          apply hnone
          apply List.eq_nil_iff_forall_not_mem.mpr
          intro call hcall
          exact hno call (List.mem_append_left calls' hcall) (htarget call hcall)
        · exact hnone' p hp hno'
    · -- it was refused, and has its answer
      have hskip : deleteNext script.db run item = run := by
        unfold deleteNext
        rw [if_neg fun h ↦ hacc (hself.mp h)]
      have hrest : w.Answered script ids items run.ret :=
        fun item' hitem' ↦ hanswered item' (List.mem_cons_of_mem item hitem')
      obtain ⟨answers, calls, hret, hcalls, hids, htarget, hnone⟩ := ih run hnodup hrest
      rw [hskip]
      exact ⟨answers, calls, hret, hcalls, by simp [hids, hacc], htarget, hnone⟩

/-- The refused ids and the accepted ones are all that are requested. -/
theorem perm_of_answered {refused answered : List Nat} (hids : ids.Nodup)
    (hrefused : refused.Nodup) (hanswered : answered.Nodup)
    (hmemRefused : ∀ x, x ∈ refused ↔ x ∈ ids ∧ ¬ w.Accepted script ids x)
    (hmemAnswered : ∀ x, x ∈ answered ↔ w.Accepted script ids x) :
    (refused ++ answered).Perm ids := by
  have hdisjoint : ∀ x ∈ refused, ∀ y ∈ answered, x ≠ y := by
    intro x hx y hy heq
    exact ((hmemRefused x).mp hx).2 ((hmemAnswered x).mp (heq ▸ hy))
  have hnodup : (refused ++ answered).Nodup :=
    List.nodup_append.mpr ⟨hrefused, hanswered, hdisjoint⟩
  apply (List.perm_ext_iff_of_nodup hnodup hids).mpr
  intro x
  rw [List.mem_append, hmemRefused, hmemAnswered]
  constructor
  · intro h
    rcases h with h | h
    · exact h.1
    · exact h.requested
  · intro hx
    by_cases hacc : w.Accepted script ids x
    · exact Or.inr hacc
    · exact Or.inl ⟨hx, hacc⟩

/-- A batch deletes nothing but requested assets that are not and do not hold the default rack
controller and on which nothing else hangs, and answers every requested id once. -/
theorem deleteItems_inside_request (std : StdSort) (hw : w.Forest) (hids : ids.Nodup)
    (script : Script) :
    ∃ run, deleteItems script.db std w ids = some run ∧
      (∀ call ∈ run.calls, call.target ∈ ids ∧ ¬ w.IsRc0 call.target ∧
        (∀ y, TransGen w.Child call.target y → y ∈ ids ∧ ¬ w.IsRc0 y) ∧
        ∀ y, (call.target, y) ∈ w.links → y ∈ ids) ∧
      (run.ret.map (·.1)).Perm ids ∧
      ∀ p ∈ run.ret, (∀ call ∈ run.calls, call.target ≠ p.1) → p.2.status = 0 := by
  classical
  have hnew : ∀ item ∈ ({} : Work).toDel, item.el.id ∉ ids := by simp
  obtain ⟨work, refusals, hwork, htoDel, hret, hstatus, hsub, hrefused⟩ :=
    foldlM_collect script hw (fun _ h ↦ h) hids hnew
  rw [List.nil_append] at htoDel hret
  have hperm := std.perm (before (w.workList script ids)) (w.workList script ids)
  have hids' := hperm.map (·.el.id)
  have hlist : ((w.workList script ids).map (·.el.id)).Nodup := workList_nodup hw hids
  have horder := hids'.nodup_iff.mpr hlist
  have hanswered := answered_of_refused
    (fun item hitem ↦ (mem_workList hw (hperm.mem_iff.mp hitem)).1) hstatus hrefused
  obtain ⟨answers, calls, hrun, hcalls, hanswers, htarget, hnone⟩ :=
    foldl_deleteNext_answers script { world := w, ret := refusals } horder hanswered
  rw [List.nil_append] at hcalls
  -- exactly the accepted ids get an answer of the deletion, the others have a refusal
  have hmem (x : Nat) : x ∈ answers.map (·.1) ↔ w.Accepted script ids x := by
    rw [hanswers, List.mem_filter, decide_eq_true_eq, hids'.mem_iff]
    exact and_iff_right_of_imp (mem_workList_of_accepted hw)
  refine ⟨(std.sort (before work.toDel) work.toDel).foldl (deleteNext script.db)
    { world := w, ret := work.ret }, ?_, ?_⟩
  · rw [deleteItems, hwork]
    rfl
  · rw [htoDel, hret, show ids.flatMap (w.entry script) = w.workList script ids from rfl, hrun,
      hcalls]
    refine ⟨?_, ?_, ?_⟩
    · intro call hcall
      have hacc := (hmem _).mp (htarget call hcall)
      refine ⟨hacc.requested, hacc.listed.notRc0, ?_, hacc.powered⟩
      exact fun y hy ↦ ⟨hacc.children y hy, hacc.listed.below y hy⟩
    · rw [List.map_append]
      apply perm_of_answered hids (hsub.nodup hids) _ _ hmem
      · rw [hanswers]
        exact horder.filter _
      · intro x
        rw [List.mem_map]
        exact hrefused x
    · intro p hp hno
      rcases List.mem_append.mp hp with hp | hp
      · exact hstatus p hp
      · exact hnone p hp hno

theorem deleteItems_inside_request_feed :
    ∃ run, deleteItems (Script.db {}) inOrder rackWithFeed [3, 2] = some run ∧
      (∀ call ∈ run.calls, call.target ∈ [3, 2] ∧ ¬ rackWithFeed.IsRc0 call.target ∧
        (∀ y, TransGen rackWithFeed.Child call.target y → y ∈ [3, 2] ∧ ¬ rackWithFeed.IsRc0 y) ∧
        ∀ y, (call.target, y) ∈ rackWithFeed.links → y ∈ [3, 2]) ∧
      (run.ret.map (·.1)).Perm [3, 2] ∧
      ∀ p ∈ run.ret, (∀ call ∈ run.calls, call.target ≠ p.1) → p.2.status = 0 :=
  deleteItems_inside_request inOrder rackWithFeed_forest (by decide) {}

end AssetStore

end FtyRest.Shared
