import FtyRest.Db.Inout.LoadAssets

/-!
# What an import commits twice

Rows are tried again in every pass until they return, also those that have been committed.
-/

namespace FtyRest.Db

open Shared Checks DoWhile

/-- No row is committed twice, and no asset is updated twice. -/
def Once (commits : List Commit) : Prop :=
  (commits.map Commit.row).Nodup ∧ (commits.filterMap Commit.id).Nodup

section

variable {σ : Type} {db : AssetsDb σ} {tools : Tools} {act : AssetActivator σ}

/-- An update that is committed leaves no message, and the name of the row is found then. -/
structure CommitReturns (db : AssetsDb σ) (tools : Tools) (act : AssetActivator σ) (i : RowInput)
    (w : World σ) : Prop where
  message : ∀ plan w' s errmsg, readRow db tools w.store i = .ok plan → plan.idStr ≠ "" →
    updateWorld db tools act w plan = some w' →
    updateBody db tools i plan w'.store = .ok (s, errmsg) → errmsg = ""
  named : ∀ plan w' written, readRow db tools w.store i = .ok plan → plan.idStr ≠ "" →
    writeRow db tools act i w plan = (w', .ok written) →
    (db.extnameToAssetName w'.store plan.ename).1 = 0

/-- The database knows the name of the row, or its asset is one of the `ids`. -/
def Remembered (db : AssetsDb σ) (i : RowInput) (s : σ) : Prop :=
  ∀ idStr ename, rowIdStr i = .ok idStr → i.cell "name" = .ok ename →
    if idStr = "" then db.extnameToAssetId s ename ≠ -1
    else uint32 (db.nameToAssetId s idStr) ∈ i.ids

/-- What the database has to answer when `process_row` is called for a row: an update that is
committed returns, and a row that has been committed before is remembered. -/
structure Settles (db : AssetsDb σ) (tools : Tools) (act : AssetActivator σ) (i : RowInput)
    (l : Load σ) : Prop where
  returns : CommitReturns db tools act i l.world
  again : i.row ∈ l.commits.map Commit.row → Remembered db i l.world.store

variable {i : RowInput} {w w' : World σ} {plan : RowPlan} {names : List (String × String)}
  {s : σ} {errmsg : String}

/-- An update that is committed without a message goes on. -/
theorem updateRow_of_body (hstart : updateWorld db tools act w plan = some w')
    (hbody : updateBody db tools i plan w'.store = .ok (s, "")) :
    ∃ w'' written, updateRow db tools act i w plan = (w'', .ok written) := by
  unfold updateRow
  unfold updateBody at hbody
  unfold updateWorld at hstart
  dsimp only at hbody ⊢
  -- the three branches of the source: no device, another device, the controller
  by_cases htype : plan.type ≠ "device"
  · have hother : ¬ plan.OtherDevice := fun h ↦ htype h.1
    rw [if_pos htype] at hbody ⊢
    rw [if_neg hother] at hstart
    obtain rfl := Option.some.inj hstart
    rw [updateDcRoomRowRackGroup, hbody]
    exact ⟨_, _, rfl⟩
  · rw [if_neg htype] at hbody ⊢
    by_cases hid : plan.idStr ≠ "rackcontroller-0"
    · have hother : plan.OtherDevice := ⟨not_not.mp htype, hid⟩
      rw [if_pos hid] at hbody ⊢
      rw [if_pos hother] at hstart
      unfold updateOtherDevice
      -- only here the world may have changed before the body runs
      rcases hdeact : deactivateAsset db tools act w plan with ⟨w₁, e | u⟩
      · rw [hdeact] at hstart
        simp at hstart
      · rw [hdeact] at hstart
        obtain rfl := Option.some.inj hstart
        dsimp only
        rw [updateDevice, hbody]
        show ∃ w'' written, (if plan.status = "active" then _ else _) = _
        split
        · exact ⟨_, _, rfl⟩
        · exact ⟨_, _, rfl⟩
    · have hother : ¬ plan.OtherDevice := fun h ↦ hid h.2
      rw [if_neg hid] at hbody ⊢
      rw [if_neg hother] at hstart
      obtain rfl := Option.some.inj hstart
      rw [updateDevice, hbody]
      exact ⟨_, _, rfl⟩

theorem ReadSteps.id_new (h : ReadSteps db tools s i names plan) (hid : plan.idStr ≠ "") :
    uint32 plan.id ∉ i.ids := by
  have hrow := h.id
  unfold rowId at hrow
  rw [if_neg hid] at hrow
  simp only [bind_eq_ok, require_eq_ok, pure_eq_ok] at hrow
  obtain ⟨-, -, -, hnew, heq⟩ := hrow
  rw [heq] at hnew
  exact hnew

theorem insertBody_new {r : σ × DbReply} (h : insertBody db tools i plan s = .ok r) :
    db.extnameToAssetId s plan.ename = -1 := by
  unfold insertBody at h
  dsimp only at h
  split at h
  · simp only [insertDcRoomRowRackGroupBody, bind_eq_ok, require_eq_ok] at h
    obtain ⟨-, hnew, -⟩ := h
    exact hnew
  · split at h
    · simp only [insertDeviceBody, bind_eq_ok, require_eq_ok] at h
      obtain ⟨-, hnew, -⟩ := h
      exact hnew
    · simp only [insertDeviceBody, bind_eq_ok, require_eq_ok] at h
      obtain ⟨-, hnew, -⟩ := h
      exact hnew

/-- What a commit says about the row. -/
theorem commitOf_eq_some {c : Commit} (h : commitOf db tools act i w = some c) :
    ∃ plan, readRow db tools w.store i = .ok plan ∧ c.row = i.row ∧
      (plan.idStr ≠ "" ∧ c.id = some (uint32 plan.id) ∧
          (∃ w' s errmsg, updateWorld db tools act w plan = some w' ∧
            updateBody db tools i plan w'.store = .ok (s, errmsg)) ∨
        plan.idStr = "" ∧ c.id = none ∧ db.extnameToAssetId w.store plan.ename = -1) := by
  unfold commitOf at h
  cases hread : readRow db tools w.store i with
  | error e =>
    rw [hread] at h
    simp at h
  | ok plan =>
    rw [hread] at h
    refine ⟨plan, rfl, ?_⟩
    dsimp only at h
    -- a row with an id updates, one without inserts a name that is not there yet
    by_cases hid : plan.idStr ≠ ""
    · rw [if_pos hid] at h
      cases hstart : updateWorld db tools act w plan with
      | none =>
        rw [hstart] at h
        simp at h
      | some w' =>
        rw [hstart] at h
        dsimp only at h
        cases hbody : updateBody db tools i plan w'.store with
        | error ret =>
          rw [hbody] at h
          simp [Except.isOk, Except.toBool] at h
        | ok r =>
          rw [hbody] at h
          obtain rfl := Option.some.inj h
          exact ⟨rfl, Or.inl ⟨hid, rfl, w', r.1, r.2, rfl, hbody⟩⟩
    · rw [if_neg hid] at h
      cases hbody : insertBody db tools i plan w.store with
      | error reply =>
        rw [hbody] at h
        simp [Except.isOk, Except.toBool] at h
      | ok r =>
        rw [hbody] at h
        obtain rfl := Option.some.inj h
        exact ⟨rfl, Or.inr ⟨not_not.mp hid, rfl, insertBody_new hbody⟩⟩

theorem updateRow_of_error (hbody : ∀ w', updateWorld db tools act w plan = some w' →
      ∃ ret, updateBody db tools i plan w'.store = .error ret) :
    (updateRow db tools act i w plan).1 = w ∨
      (updateRow db tools act i w plan).1 = (deactivateAsset db tools act w plan).1 := by
  unfold updateRow
  unfold updateBody updateWorld at hbody
  dsimp only at hbody ⊢
  by_cases htype : plan.type ≠ "device"
  · have hother : ¬ plan.OtherDevice := fun h ↦ htype h.1
    simp only [if_pos htype, if_neg hother, Option.some.injEq, forall_eq'] at hbody ⊢
    obtain ⟨ret, hbody⟩ := hbody
    rw [updateDcRoomRowRackGroup, hbody]
    exact Or.inl rfl
  · simp only [if_neg htype] at hbody ⊢
    by_cases hid : plan.idStr ≠ "rackcontroller-0"
    · have hother : plan.OtherDevice := ⟨not_not.mp htype, hid⟩
      simp only [if_pos hid, if_pos hother] at hbody ⊢
      unfold updateOtherDevice
      -- the body is rolled back, but a deactivation in front of it stays
      rcases hdeact : deactivateAsset db tools act w plan with ⟨w₁, e | u⟩
      · exact Or.inr rfl
      · rw [hdeact] at hbody
        obtain ⟨ret, hbody⟩ := hbody w₁ rfl
        dsimp only
        rw [updateDevice, hbody]
        obtain ⟨e, he⟩ : ∃ e, updated (committed w₁.store (.error ret)).2 = .error e :=
          updated_error_iff.mpr (Or.inl (updateDeviceBody_error hbody))
        rw [he]
        exact Or.inr rfl
    · have hother : ¬ plan.OtherDevice := fun h ↦ hid h.2
      simp only [if_neg hid, if_neg hother, Option.some.injEq, forall_eq'] at hbody ⊢
      obtain ⟨ret, hbody⟩ := hbody
      rw [updateDevice, hbody]
      exact Or.inl rfl

theorem insertRow_of_error (hdb : InsertReplies db) {reply : DbReply}
    (hbody : insertBody db tools i plan w.store = .error reply) :
    (insertRow db tools act i w plan).1 = w := by
  unfold insertRow
  unfold insertBody at hbody
  dsimp only at hbody ⊢
  by_cases htype : plan.type ≠ "device"
  · rw [if_pos htype] at hbody ⊢
    rw [insertDcRoomRowRackGroup, hbody]
    rfl
  · rw [if_neg htype] at hbody ⊢
    by_cases hrc : plan.subtypeId ≠ plan.rackControllerId
    · rw [if_pos hrc] at hbody ⊢
      -- an activation follows only a reply of 1, which a refused body never gives
      have hstatus : reply.status ≠ 1 := by
        rw [insertDeviceBody_error hdb hbody]
        decide
      obtain ⟨e, he⟩ : ∃ e, insertedId (inserted w.store (.error reply)).2 = .error e :=
        insertedId_error_iff.mpr hstatus
      unfold insertOtherDevice
      dsimp only
      rw [insertDevice, hbody, he]
      rfl
    · rw [if_neg hrc] at hbody ⊢
      rw [insertDevice, hbody]
      rfl

/-- A row that commits nothing writes nothing, but for the deactivation of its device. -/
theorem processRow_of_not_committed (hdb : InsertReplies db)
    (h : commitOf db tools act i w = none) :
    (processRow db tools act i w).1 = w ∨
      ∃ plan, (processRow db tools act i w).1 = (deactivateAsset db tools act w plan).1 := by
  unfold commitOf at h
  cases hread : readRow db tools w.store i with
  | error e =>
    unfold processRow
    rw [hread]
    exact Or.inl rfl
  | ok plan =>
    rw [hread] at h
    dsimp only at h
    rw [processRow_write hread, writeRow]
    -- `commitOf` is none, so the body of the branch taken has failed
    by_cases hid : plan.idStr ≠ ""
    · rw [if_pos hid] at h ⊢
      refine (updateRow_of_error fun w' hstart ↦ ?_).imp_right fun hdeact ↦ ⟨plan, hdeact⟩
      rw [hstart] at h
      dsimp only at h
      cases hbody : updateBody db tools i plan w'.store with
      | error ret => exact ⟨ret, rfl⟩
      | ok r =>
        rw [hbody] at h
        simp [Except.isOk, Except.toBool] at h
    · rw [if_neg hid] at h ⊢
      cases hbody : insertBody db tools i plan w.store with
      | error reply => exact Or.inl (insertRow_of_error hdb hbody)
      | ok r =>
        rw [hbody] at h
        simp [Except.isOk, Except.toBool] at h

/-- An update that is committed returns, with its asset among the `ids`. -/
theorem processRow_of_commit (h : CommitReturns db tools act i w)
    (hread : readRow db tools w.store i = .ok plan) (hid : plan.idStr ≠ "")
    (hstart : updateWorld db tools act w plan = some w')
    (hbody : updateBody db tools i plan w'.store = .ok (s, errmsg)) :
    ∃ w'' result, processRow db tools act i w = (w'', .ok result) ∧
      result.ids = uint32 plan.id :: i.ids := by
  obtain rfl := h.message plan w' s errmsg hread hid hstart hbody
  obtain ⟨w'', written, hupdate⟩ := updateRow_of_body hstart hbody
  have hwrite : writeRow db tools act i w plan = (w'', .ok written) := by
    rw [writeRow, if_pos hid, hupdate]
  have hname := h.named plan w'' written hread hid hwrite
  unfold processRow
  simp only [hread, hwrite, hname, ne_eq, not_true_eq_false, if_false, if_neg hid]
  exact ⟨_, _, rfl, rfl⟩

theorem updateElement_message
    (hdb : ∀ s id attrs ro errmsg, (db.insertIntoAssetExtAttributes s id attrs ro errmsg).2.2 = errmsg)
    {elementId : Nat} {aw : AssetWrite} {s' : σ}
    (h : updateElement db tools s elementId aw = .ok (s', errmsg)) : errmsg = "" := by
  simp only [updateElement, bind_eq_ok, pure_eq_ok, Prod.mk.injEq] at h
  obtain ⟨-, -, -, -, -, -, -, rfl⟩ := h
  exact hdb _ _ _ _ _

theorem updateElementRO_message
    (hdb : ∀ s id attrs ro errmsg, (db.insertIntoAssetExtAttributes s id attrs ro errmsg).2.2 = errmsg)
    {elementId : Nat} {attrs : Option (List (String × String))} {ro : Bool} {s' : σ}
    {errmsg' : String}
    (h : updateElementRO db tools s elementId attrs ro errmsg = .ok (s', errmsg')) :
    errmsg' = errmsg := by
  cases attrs with
  | none =>
    simp only [updateElementRO, pure_eq_ok, Prod.mk.injEq] at h
    exact h.2.symm
  | some attrs =>
    simp only [updateElementRO, bind_eq_ok, pure_eq_ok, Prod.mk.injEq] at h
    obtain ⟨-, -, -, rfl⟩ := h
    exact hdb _ _ _ _ _

/-- With a library that leaves `errmsg` alone, an update that is committed has no message. -/
theorem updateBody_message
    (hdb : ∀ s id attrs ro errmsg, (db.insertIntoAssetExtAttributes s id attrs ro errmsg).2.2 = errmsg)
    {s' : σ} (h : updateBody db tools i plan s = .ok (s', errmsg)) : errmsg = "" := by
  have hdevice {elementId : Nat} {aw : AssetWrite}
      (h : updateDeviceBody db tools s elementId aw = .ok (s', errmsg)) : errmsg = "" := by
    simp only [updateDeviceBody, bind_eq_ok, pure_eq_ok, Prod.exists, Prod.mk.injEq] at h
    obtain ⟨-, -, s₁, errmsg₁, hupdate, s₂, errmsg₂, hro, -, -, -, -, -, -, -, -, -, rfl⟩ := h
    exact (updateElementRO_message hdb hro).trans (updateElement_message hdb hupdate)
  unfold updateBody at h
  dsimp only at h
  split at h
  · simp only [updateDcRoomRowRackGroupBody, bind_eq_ok, pure_eq_ok, Prod.exists,
      Prod.mk.injEq] at h
    obtain ⟨-, -, s₁, errmsg₁, hupdate, s₂, errmsg₂, hro, -, -, -, -, -, rfl⟩ := h
    exact (updateElementRO_message hdb hro).trans (updateElement_message hdb hupdate)
  · split at h
    · exact hdevice h
    · exact hdevice h

theorem processRow_ids {w : World σ} {result : RowResult}
    (h : processRow db tools act i w = (w', .ok result)) : ∀ id ∈ i.ids, id ∈ result.ids := by
  intro id hmem
  unfold processRow at h
  cases hread : readRow db tools w.store i with
  | error e =>
    rw [hread] at h
    simp at h
  | ok plan =>
    simp only [hread] at h
    rcases hwrite : writeRow db tools act i w plan with ⟨w₁, e | written⟩
    · rw [hwrite] at h
      simp at h
    · simp only [hwrite] at h
      split at h
      · simp at h
      · obtain rfl := Except.ok.inj (Prod.mk.inj h).2
        show id ∈ if plan.idStr = "" then i.ids else _
        split
        · exact hmem
        · exact List.mem_cons_of_mem _ hmem

end

/-! ## Calls -/

section

variable {σ : Type} {db : AssetsDb σ} {tools : Tools} {act : AssetActivator σ}
  {what : Thrown → String} {a : LoadArgs} {l : Load σ} {row : Nat}

/-- What has been committed so far is committed once, and the updated assets are in `ids`. -/
structure Tracked (l : Load σ) : Prop where
  once : Once l.commits
  known : ∀ id ∈ l.commits.filterMap Commit.id, id ∈ l.ids

theorem loadRow_commits : (loadRow db tools act what a l row).1.commits =
    l.commits ++ (commitOf db tools act (a.input row l.ids) l.world).toList := by
  unfold loadRow
  dsimp only
  split
  · rfl
  · rfl

theorem loadRow_world (l : Load σ) (row : Nat) :
    (loadRow db tools act what a l row).1.world =
      (processRow db tools act (a.input row l.ids) l.world).1 := by
  unfold loadRow
  dsimp only
  rcases processRow db tools act (a.input row l.ids) l.world with ⟨world, e | result⟩
  · rfl
  · rfl

theorem loadRow_of_not_committed (hdb : InsertReplies db)
    (h : (loadRow db tools act what a l row).1.commits = l.commits) :
    (loadRow db tools act what a l row).1.world = l.world ∨
      ∃ plan, (loadRow db tools act what a l row).1.world =
        (deactivateAsset db tools act l.world plan).1 := by
  rw [loadRow_commits, List.append_right_eq_self, Option.toList_eq_nil_iff] at h
  rw [loadRow_world l row]
  exact processRow_of_not_committed hdb h

theorem loadRow_ids : ∀ id ∈ l.ids, id ∈ (loadRow db tools act what a l row).1.ids := by
  intro id hmem
  unfold loadRow
  dsimp only
  split
  · exact hmem
  · rename_i world result hrow
    exact processRow_ids hrow id hmem

theorem Once.concat {commits : List Commit} {c : Commit} (h : Once commits)
    (hrow : c.row ∉ commits.map Commit.row)
    (hid : ∀ id, c.id = some id → id ∉ commits.filterMap Commit.id) : Once (commits ++ [c]) := by
  constructor
  · rw [List.map_append]
    apply List.nodup_append.mpr
    refine ⟨h.1, List.nodup_singleton _, ?_⟩
    rintro r hr _ hr' rfl
    exact hrow (List.mem_singleton.mp hr' ▸ hr)
  · rw [List.filterMap_append]
    apply List.nodup_append.mpr
    cases hc : c.id with
    | none =>
      rw [List.filterMap_cons_none hc]
      exact ⟨h.2, List.nodup_nil, fun _ _ _ hmem ↦ absurd hmem List.not_mem_nil⟩
    | some id =>
      rw [List.filterMap_cons_some hc]
      refine ⟨h.2, List.nodup_singleton _, ?_⟩
      rintro id' hid' _ hmem rfl
      exact hid id' (hc.trans (congrArg some (List.mem_singleton.mp hmem).symm)) hid'

/-- A call of `process_row` commits nothing again. -/
theorem Tracked.loadRow (h : Tracked l) (hsettles : Settles db tools act (a.input row l.ids) l) :
    Tracked (loadRow db tools act what a l row).1 := by
  cases hcommit : commitOf db tools act (a.input row l.ids) l.world with
  | none =>
    have hcommits : (Db.loadRow db tools act what a l row).1.commits = l.commits := by
      rw [loadRow_commits, hcommit]
      exact List.append_nil _
    exact ⟨hcommits ▸ h.once, fun id hid ↦ loadRow_ids id (h.known id (hcommits ▸ hid))⟩
  | some c =>
    have hcommits : (Db.loadRow db tools act what a l row).1.commits = l.commits ++ [c] := by
      rw [loadRow_commits, hcommit]
      rfl
    obtain ⟨plan, hread, hrow, hcase⟩ := commitOf_eq_some hcommit
    obtain ⟨names, hsteps⟩ := readRow_steps hread
    rcases hcase with ⟨hid, hc, w', s, errmsg, hstart, hbody⟩ | ⟨hid, hc, hnew⟩
    · -- an update: the id was not among those of the run, and is one of them now
      have hfresh : uint32 plan.id ∉ l.ids := hsteps.id_new hid
      obtain ⟨w'', result, hprocess, hids⟩ :=
        processRow_of_commit hsettles.returns hread hid hstart hbody
      have hids' : (Db.loadRow db tools act what a l row).1.ids = uint32 plan.id :: l.ids := by
        unfold Db.loadRow
        dsimp only
        rw [hprocess]
        exact hids
      constructor
      · rw [hcommits]
        -- a second commit of the row would need its id not to be known
        apply h.once.concat
        · intro hmem
          rw [hrow] at hmem
          have hagain := hsettles.again hmem plan.idStr plan.ename hsteps.idStr hsteps.nameCell
          rw [if_neg hid, ← hsteps.id_eq hid] at hagain
          exact hfresh hagain
        · intro id hcid hmem
          obtain rfl := Option.some.inj (hc.symm.trans hcid)
          exact hfresh (h.known _ hmem)
      · intro id hmem
        rw [hcommits, List.filterMap_append, List.filterMap_cons_some hc] at hmem
        rw [hids']
        rcases List.mem_append.mp hmem with hold | hadded
        · exact List.mem_cons_of_mem _ (h.known id hold)
        · rw [List.mem_singleton.mp hadded]
          exact List.mem_cons_self
    · -- an insert, which has no id to be known by: the asset was not there before
      constructor
      · rw [hcommits]
        apply h.once.concat
        · intro hmem
          rw [hrow] at hmem
          have hagain := hsettles.again hmem plan.idStr plan.ename hsteps.idStr hsteps.nameCell
          rw [if_pos hid] at hagain
          exact hagain hnew
        · intro id hcid
          rw [hc] at hcid
          simp at hcid
      · intro id hmem
        rw [hcommits, List.filterMap_append, List.filterMap_cons_none hc, List.filterMap_nil,
          List.append_nil] at hmem
        exact loadRow_ids id (h.known id hmem)

/-! ## Runs -/

variable {touchFn : World σ → Except RowError Unit} {w : World σ} {rest : List Nat}
  {i i' : Import (Load σ) RowResult}

theorem importRow_world
    (h : importRow (loadRow db tools act what a) (loadTouch touchFn) i row = some i') :
    row ∈ i.processedRows ∧ i'.world = i.world ∨
      row ∉ i.processedRows ∧ i'.world = (loadRow db tools act what a i.world row).1 := by
  unfold importRow at h
  by_cases hp : row ∈ i.processedRows
  · rw [if_pos hp] at h
    obtain rfl := Option.some.inj h
    exact Or.inl ⟨hp, rfl⟩
  · rw [if_neg hp] at h
    refine Or.inr ⟨hp, ?_⟩
    rcases hrow : loadRow db tools act what a i.world row with ⟨l, (e | e) | ⟨ret, warning⟩⟩
    · rw [hrow] at h
      obtain rfl := Option.some.inj h
      rfl
    · rw [hrow] at h
      simp at h
    · rw [hrow] at h
      dsimp only [loadTouch] at h
      -- the touch answers, but does not change the world of the import
      rcases htouch : touchFn l.world with (e | e) | u
      · rw [htouch] at h
        obtain rfl := Option.some.inj h
        rfl
      · rw [htouch] at h
        simp at h
      · rw [htouch] at h
        obtain rfl := Option.some.inj h
        simp

/-- As long as commits and `touch_fn` return, a row that has been committed is not called again. -/
theorem Loading.processed (htouch : ∀ w, touchFn w = .ok ())
    (hreturns : ∀ row rest i, Loading db tools act what a touchFn w (row :: rest) i →
      row ∉ i.processedRows →
      commitOf db tools act (a.input row i.world.ids) i.world.world ≠ none →
      ∃ result, (loadRow db tools act what a i.world row).2 = .ok result)
    (h : Loading db tools act what a touchFn w rest i) :
    ∀ row ∈ i.world.commits.map Commit.row, row ∈ i.processedRows := by
  induction h with
  | start => exact fun _ hmem ↦ absurd hmem List.not_mem_nil
  | again _ _ ih => exact ih
  | @row row' rest i i' hloading hrow ih =>
    have hold : ∀ row ∈ i.processedRows, row ∈ i'.processedRows := by
      intro row hmem
      rcases importRow_processed hrow with ⟨heq, -⟩ | ⟨-, heq⟩
      · rw [heq]
        exact hmem
      · rw [heq]
        exact List.mem_cons_of_mem _ hmem
    intro row hmem
    rcases importRow_world hrow with ⟨-, hworld⟩ | ⟨hp, hworld⟩
    · rw [hworld] at hmem
      exact hold row (ih row hmem)
    · rw [hworld, loadRow_commits, List.map_append] at hmem
      rcases List.mem_append.mp hmem with hmem | hmem
      · exact hold row (ih row hmem)
      · obtain ⟨c, hc, rfl⟩ := List.mem_map.mp hmem
        have hcommit := Option.mem_toList.mp hc
        have hsome : commitOf db tools act (a.input row' i.world.ids) i.world.world ≠ none :=
          Option.ne_none_iff_exists'.mpr ⟨c, hcommit⟩
        obtain ⟨result, hok⟩ := hreturns row' rest i hloading hp hsome
        obtain ⟨-, -, hcrow, -⟩ := commitOf_eq_some hcommit
        -- the call has returned, so the row is processed
        unfold importRow at hrow
        rw [if_neg hp] at hrow
        rcases hload : loadRow db tools act what a i.world row' with ⟨l, r⟩
        rw [hload] at hok hrow
        obtain rfl : r = .ok result := hok
        simp only [loadTouch, htouch] at hrow
        obtain rfl := Option.some.inj hrow
        rw [hcrow]
        exact List.mem_cons_self

/-- When every call of `process_row` meets the condition, no row is committed twice and no asset is
updated twice, in every state of the loop and after every call, also one with an exception that
ends the import.  A call that commits nothing writes nothing, but for the deactivation of its
device. -/
theorem import_touches_once
    (hsettles : ∀ row rest i, Loading db tools act what a touchFn w (row :: rest) i →
      row ∉ i.processedRows → Settles db tools act (a.input row i.world.ids) i.world)
    (h : Loading db tools act what a touchFn w rest i) :
    Once i.world.commits ∧ ∀ row rest', rest = row :: rest' → row ∉ i.processedRows →
      Once (loadRow db tools act what a i.world row).1.commits ∧
      (InsertReplies db →
        (loadRow db tools act what a i.world row).1.commits = i.world.commits →
        (loadRow db tools act what a i.world row).1.world = i.world.world ∨
          ∃ plan, (loadRow db tools act what a i.world row).1.world =
            (deactivateAsset db tools act i.world.world plan).1) := by
  -- by induction on the import: a row adds one commit at most, and only while it is not processed
  have htracked : Tracked i.world := by
    induction h with
    | start =>
      exact ⟨⟨List.nodup_nil, List.nodup_nil⟩, fun _ hmem ↦ absurd hmem List.not_mem_nil⟩
    | row hloading hrow ih =>
      rcases importRow_world hrow with ⟨-, hworld⟩ | ⟨hp, hworld⟩
      · rw [hworld]
        exact ih
      · rw [hworld]
        exact ih.loadRow (hsettles _ _ _ hloading hp)
    | again _ _ ih => exact ih
  refine ⟨htracked.once, ?_⟩
  rintro row rest' rfl hp
  exact ⟨(htracked.loadRow (hsettles row rest' i h hp)).once, loadRow_of_not_committed⟩

end

/-! ## A name that is not found once -/

/-- Two devices; the store counts their updates.  The name of the first one is not found after the
first update, for an error of the database. -/
def lostName : AssetsDb Nat where
  nameToAssetId _ name := if name = "ups-7" then 7 else if name = "ups-8" then 8 else -1
  extnameToAssetId _ extname := if extname = "UPS" then 7 else if extname = "UPS 2" then 8 else -1
  extnameToAssetName updates extname :=
    if extname = "UPS" then if updates = 1 then (-2, "") else (0, "ups-7")
    else if extname = "UPS 2" then (0, "ups-8")
    else (-1, "")
  isOkName _ := true
  rowByName _ name := .ok (if name = "ups-7" then some 7 else if name = "ups-8" then some 8 else none)
  rowByExtname _ extname :=
    .ok (if extname = "UPS" then some 7 else if extname = "UPS 2" then some 8 else none)
  selectAssetElementWebById _ id :=
    if id = 7 ∨ id = 8 then .ok ⟨AssetType.device, 1, "ups"⟩ else .error .notFound
  getStatusFromDbHelper _ _ := "nonactive"
  selectMonitorDeviceTypeId _ _ := .error { status := 0, errsubtype := .notFound }
  getJsonAsset _ _ := .ok "an asset"
  typeidToType _ := "device"
  subtypeidToSubtype _ := "ups"
  updateAssetElement updates _ _ := (updates + 1, 0, 1)
  insertIntoAssetElement updates _ _ _ := (updates, { status := 0 })
  deleteAssetExtAttributesWithRo updates _ _ := (updates, {})
  insertIntoAssetExtAttributes updates _ _ _ errmsg := (updates, {}, errmsg)
  deleteAssetElementFromAssetGroups updates _ := (updates, {})
  insertElementIntoGroups updates groups _ := (updates, { affectedRows := groups.length })
  deleteAssetLinksTo updates _ := (updates, {})
  insertIntoAssetLinks updates links := (updates, { affectedRows := links.length })
  insertIntoMonitorDevice updates _ _ := (updates, {})
  insertIntoMonitorAssetRelation updates _ _ := (updates, {})

def steadyActivator {σ : Type} : AssetActivator σ where
  activate w _ := (w, .ok ())
  deactivate w _ := (w, .ok ())

/-- A table that updates the two devices. -/
def twoUps : LoadArgs where
  cm := {
    data := [["id", "name", "type", "sub_type", "location", "status", "priority"],
      ["ups-7", "UPS", "device", "ups", "", "nonactive", "P1"],
      ["ups-8", "UPS 2", "device", "ups", "", "nonactive", "P1"]]
    titleToIndex := ["id", "name", "type", "sub_type", "location", "status", "priority"].zipIdx }
  types := [("device", AssetType.device)]
  subtypes := [("patch panel", 3), ("rack controller", 2), ("ups", 1)]
  limitations := { globalConfigurability := 1 }

def twoUpsSetup : ImportSetup := ⟨true, twoUps.types, twoUps.subtypes⟩

/-- The same devices, with names that are always found. -/
def foundNames : AssetsDb Nat :=
  { lostName with
    extnameToAssetId := fun _ _ ↦ 7
    extnameToAssetName := fun _ extname ↦ (0, if extname = "UPS" then "ups-7" else "ups-8") }

theorem foundNames_returns (i : RowInput) (w : World Nat) :
    CommitReturns foundNames plainTools steadyActivator i w where
  message _ _ _ _ _ _ _ hbody := updateBody_message (fun _ _ _ _ _ ↦ rfl) hbody
  named _ _ _ _ _ _ := rfl

theorem foundNames_settles {w : World Nat} {row : Nat} {rest : List Nat}
    {i : Import (Load Nat) RowResult}
    (h : Loading foundNames plainTools steadyActivator (fun _ ↦ "") twoUps (fun _ ↦ .ok ()) w
      (row :: rest) i) (hp : row ∉ i.processedRows) :
    Settles foundNames plainTools steadyActivator (twoUps.input row i.world.ids) i.world where
  returns := foundNames_returns _ _
  again hmem := by
    refine absurd (h.processed (fun _ ↦ rfl) ?_ row hmem) hp
    intro row' rest' i' _ _ hcommit
    obtain ⟨c, hc⟩ := Option.ne_none_iff_exists'.mp hcommit
    obtain ⟨plan, hread, -, ⟨hid, -, w', s, errmsg, hstart, hbody⟩ | ⟨-, -, hnew⟩⟩ :=
      commitOf_eq_some hc
    · obtain ⟨w'', result, hprocess, -⟩ :=
        processRow_of_commit (foundNames_returns _ _) hread hid hstart hbody
      refine ⟨(result, result.warningMessages), ?_⟩
      unfold loadRow
      dsimp only
      rw [hprocess]
    · exact absurd (show (7 : Int) = -1 from hnew) (by decide)

/-- Both rows are imported. -/
theorem import_touches_once_ups :
    ∃ i, LoadAssetCsv (loadRow foundNames plainTools steadyActivator (fun _ ↦ "") twoUps)
        (loadTouch fun _ ↦ .ok ()) twoUpsSetup twoUps.cm
        { world := { store := 0, activation := fun _ ↦ false } } i ∧
      i.world.commits = [⟨1, some 7⟩, ⟨2, some 8⟩] ∧ Once i.world.commits := by
  have hrun : (run (importPass (loadRow foundNames plainTools steadyActivator (fun _ ↦ "") twoUps)
      (loadTouch fun _ ↦ .ok ()) twoUps.cm) 2
      (some { world := { world := { store := 0, activation := fun _ ↦ false } } })).map
        (Option.map fun i ↦ i.world.commits) = some (some [⟨1, some 7⟩, ⟨2, some 8⟩]) := by
    decide +kernel
  obtain ⟨o, ho, hcommits⟩ := Option.map_eq_some_iff.mp hrun
  obtain ⟨i, rfl, hcommits⟩ := Option.map_eq_some_iff.mp hcommits
  have hload : LoadAssetCsv (loadRow foundNames plainTools steadyActivator (fun _ ↦ "") twoUps)
      (loadTouch fun _ ↦ .ok ()) twoUpsSetup twoUps.cm
      { world := { store := 0, activation := fun _ ↦ false } } i :=
    ⟨by decide, 2, ho⟩
  exact ⟨i, hload, Option.some.inj hcommits,
    (import_touches_once (fun _ _ _ h hp ↦ foundNames_settles h hp) hload.loading).1⟩

/-- The first row throws after its commit, the second one is imported, and so the first one is
tried and committed again. -/
theorem lost_name_commits_twice :
    ∃ i, LoadAssetCsv (loadRow lostName plainTools steadyActivator (fun _ ↦ "") twoUps)
        (loadTouch fun _ ↦ .ok ()) twoUpsSetup twoUps.cm
        { world := { store := 0, activation := fun _ ↦ false } } i ∧
      i.world.commits = [⟨1, some 7⟩, ⟨2, some 8⟩, ⟨1, some 7⟩] ∧ ¬ Once i.world.commits := by
  have hrun : (run (importPass (loadRow lostName plainTools steadyActivator (fun _ ↦ "") twoUps)
      (loadTouch fun _ ↦ .ok ()) twoUps.cm) 3
      (some { world := { world := { store := 0, activation := fun _ ↦ false } } })).map
        (Option.map fun i ↦ i.world.commits) =
          some (some [⟨1, some 7⟩, ⟨2, some 8⟩, ⟨1, some 7⟩]) := by
    decide +kernel
  obtain ⟨o, ho, hcommits⟩ := Option.map_eq_some_iff.mp hrun
  obtain ⟨i, rfl, hcommits⟩ := Option.map_eq_some_iff.mp hcommits
  have hcommits : i.world.commits = _ := Option.some.inj hcommits
  refine ⟨i, ⟨by decide, 3, ho⟩, hcommits, ?_⟩
  rw [hcommits]
  unfold Once
  decide

end FtyRest.Db
