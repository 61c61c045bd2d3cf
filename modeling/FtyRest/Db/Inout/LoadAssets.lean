import FtyRest.Db.Inout.ImportCsv
import FtyRest.Db.Inout.RowTrace

/-!
# The rows of `load_asset_csv`

The import of a table with `process_row` for each row, the states that its loop goes through, and
what the rows have committed on the way.
-/

namespace FtyRest.Db

open Shared Checks DoWhile

/-- What `load_asset_csv` has read before the first row, and passes on to `process_row`. -/
structure LoadArgs where
  cm : CsvMap
  types : List (String × Nat)
  subtypes : List (String × Nat)
  limitations : Limitations

/-- The arguments of `process_row`; no row is promoted to `rackcontroller-0`. -/
def LoadArgs.input (a : LoadArgs) (row : Nat) (ids : List Nat) : RowInput where
  cm := a.cm
  row := row
  types := a.types
  subtypes := a.subtypes
  ids := ids
  sanitize := true
  rc0 := 2 ^ 64 - 1
  limitations := a.limitations

/-- A transaction that went through: the row, and the asset that it has updated. -/
structure Commit where
  row : Nat
  id : Option Nat
deriving DecidableEq, Repr

/-- The world and the `ids` of the import, with what has been committed so far. -/
structure Load (σ : Type) where
  world : World σ
  ids : List Nat := []
  commits : List Commit := []

section

variable {σ : Type} (db : AssetsDb σ) (tools : Tools) (act : AssetActivator σ)

/-- The transaction of an update. -/
def updateBody (i : RowInput) (plan : RowPlan) (s : σ) : Except UpdateResult (σ × String) :=
  let a := plan.write plan.iname (updateRO i.cm)
  if plan.type ≠ "device" then updateDcRoomRowRackGroupBody db tools s (uint32 plan.id) a
  else if plan.idStr ≠ "rackcontroller-0" then
    updateDeviceBody db tools s (uint32 plan.id) { a with status := "nonactive" }
  else updateDeviceBody db tools s (uint32 plan.id) a

/-- The transaction of an insertion. -/
def insertBody (i : RowInput) (plan : RowPlan) (s : σ) : Except DbReply (σ × DbReply) :=
  let a := plan.write plan.ename (insertRO i.cm)
  if plan.type ≠ "device" then insertDcRoomRowRackGroupBody db tools s a
  else if plan.subtypeId ≠ plan.rackControllerId then
    insertDeviceBody db tools s { a with status := nonactiveFirst plan.status }
  else insertDeviceBody db tools s a

/-- The world in which the transaction of an update begins, if it does. -/
def updateWorld (w : World σ) (plan : RowPlan) : Option (World σ) :=
  if plan.OtherDevice then
    match deactivateAsset db tools act w plan with
    | (w', .ok ()) => some w'
    | (_, .error _) => none
  else some w

/-- The transaction of a row, if it is committed. -/
def commitOf (i : RowInput) (w : World σ) : Option Commit :=
  match readRow db tools w.store i with
  | .error _ => none
  | .ok plan =>
      if plan.idStr ≠ "" then
        match updateWorld db tools act w plan with
        | none => none
        | some w' =>
            if (updateBody db tools i plan w'.store).isOk then
              some { row := i.row, id := some (uint32 plan.id) }
            else none
      else if (insertBody db tools i plan w.store).isOk then some { row := i.row, id := none }
      else none

variable (what : Thrown → String)

/-- The exceptions as `load_asset_csv` tells them apart. -/
def rowError : Thrown → RowError
  | .csv e => .other (what (.csv e))
  | e => .invalidArgument (what e)

variable (a : LoadArgs)

/-- `process_row`, as it is called. -/
def loadRow (l : Load σ) (row : Nat) : Load σ × Except RowError (RowResult × String) :=
  let i := a.input row l.ids
  let commits := l.commits ++ (commitOf db tools act i l.world).toList
  match processRow db tools act i l.world with
  | (world, .error e) => ({ l with world, commits }, .error (rowError what e))
  | (world, .ok result) =>
      ({ world, ids := result.ids, commits }, .ok (result, result.warningMessages))

variable (touchFn : World σ → Except RowError Unit)

/-- `touch_fn` renews a watchdog, and leaves the world alone. -/
def loadTouch (l : Load σ) : Load σ × Except RowError Unit := (l, touchFn l.world)

/-- The states that the loop of `load_asset_csv` goes through, with the rows that are left of the
pass. -/
inductive Loading (w : World σ) : List Nat → Import (Load σ) RowResult → Prop where
  | start : Loading w (dataRows a.cm) { world := { world := w } }
  | row {row : Nat} {rest : List Nat} {i i' : Import (Load σ) RowResult} :
      Loading w (row :: rest) i →
      importRow (loadRow db tools act what a) (loadTouch touchFn) i row = some i' →
      Loading w rest i'
  | again {i : Import (Load σ) RowResult} : Loading w [] i → i.somethingProcessed = true →
      Loading w (dataRows a.cm) { i with somethingProcessed := false, failRows := fun _ ↦ none }

end

section

variable {σ : Type} {db : AssetsDb σ} {tools : Tools} {act : AssetActivator σ}
  {what : Thrown → String} {a : LoadArgs} {touchFn : World σ → Except RowError Unit}
  {w : World σ} {i i' : Import (Load σ) RowResult} {rest rest' : List Nat}

theorem Loading.rows (h : Loading db tools act what a touchFn w (rest ++ rest') i)
    (hrows : rest.foldlM (importRow (loadRow db tools act what a) (loadTouch touchFn)) i =
      some i') : Loading db tools act what a touchFn w rest' i' := by
  induction rest generalizing i with
  | nil =>
    obtain rfl : i = i' := by simpa using hrows
    exact h
  | cons row rest ih =>
    simp only [List.foldlM_cons, Option.bind_eq_bind, Option.bind_eq_some_iff] at hrows
    obtain ⟨j, hj, hrest⟩ := hrows
    exact ih (h.row hj) hrest

/-- `load_asset_csv` returns with the last of these states. -/
theorem LoadAssetCsv.loading {db' : ImportSetup}
    (h : LoadAssetCsv (loadRow db tools act what a) (loadTouch touchFn) db' a.cm
      { world := w } i) : Loading db tools act what a touchFn w [] i := by
  refine Exits.rounds (motive := fun s t ↦ ∀ i i', s = some i → t = some i' →
    Loading db tools act what a touchFn w (dataRows a.cm)
      { i with somethingProcessed := false, failRows := fun _ ↦ none } →
    Loading db tools act what a touchFn w [] i') ?_ ?_ h.2 _ i rfl rfl Loading.start
  · rintro s t hbody i i' rfl rfl hi
    simp only [importPass] at hbody
    split at hbody
    · simp at hbody
    · rename_i j hj
      obtain rfl := Option.some.inj (Prod.mk.inj hbody).2
      rw [← List.append_nil (dataRows a.cm)] at hi
      exact hi.rows hj
  · rintro s s' t hbody hrest ih i i' rfl rfl hi
    simp only [importPass] at hbody
    split at hbody
    · simp at hbody
    · rename_i j hj
      obtain ⟨hgo, rfl⟩ := Prod.mk.inj hbody
      rw [← List.append_nil (dataRows a.cm)] at hi
      exact ih j i' rfl rfl ((hi.rows hj).again hgo)

end

end FtyRest.Db
