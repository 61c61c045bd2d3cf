import FtyRest.Lib.DoWhile
import FtyRest.Shared.Csv
import Mathlib.Data.List.Range
import Mathlib.Logic.Function.Basic
import Mathlib.Tactic.Linarith

/-!
# `load_asset_csv`

The import of a whole table from `db/inout/importcsv.cc`: the rows are gone through pass after
pass, for as long as a pass imports something.  What is done for one row is a parameter here; it
works on a world of its own.
-/

namespace FtyRest.Db

open Shared DoWhile

/-- What leaves `process_row` or `touch_fn` by an exception. -/
inductive RowError where
  | invalidArgument (what : String)
  | other (what : String)
deriving DecidableEq, Repr

/-- The variables of `load_asset_csv`.  A result in `okRows` is kept with the row it is from. -/
structure Import (σ ρ : Type) where
  world : σ
  okRows : List (Nat × ρ) := []
  failRows : Nat → Option String := fun _ ↦ none
  processedRows : List Nat := []
  somethingProcessed : Bool := false

section

variable {σ ρ : Type} (processRow : σ → Nat → σ × Except RowError (ρ × String))
  (touchFn : σ → σ × Except RowError Unit)

/-- `failRows.insert (...)`, which leaves an entry that is there. -/
def insertFail (failRows : Nat → Option String) (key : Nat) (msg : String) : Nat → Option String :=
  if (failRows key).isSome then failRows else Function.update failRows key (some msg)

/-- One row of a pass, `none` when an exception gets out. -/
def importRow (i : Import σ ρ) (row : Nat) : Option (Import σ ρ) :=
  if row ∈ i.processedRows then some i
  else
    match processRow i.world row with
    | (_, .error (.other _)) => none
    | (w, .error (.invalidArgument what)) =>
        some { i with world := w, failRows := insertFail i.failRows (row + 1) what }
    | (w, .ok (ret, warningMessages)) =>
        match touchFn w with
        | (_, .error (.other _)) => none
        | (w, .error (.invalidArgument what)) =>
            some { i with world := w, failRows := insertFail i.failRows (row + 1) what }
        | (w, .ok ()) =>
            let i :=
              if warningMessages = "" then { i with okRows := i.okRows ++ [(row, ret)] }
              else { i with failRows := insertFail i.failRows (row + 1) warningMessages }
            some { i with
              world := w
              somethingProcessed := true
              processedRows := row :: i.processedRows }

/-- The data rows, the first one being the header. -/
def dataRows (cm : CsvMap) : List Nat := List.range' 1 (cm.rows - 1)

/-- One round of the loop over the passes. -/
def importPass (cm : CsvMap) : Option (Import σ ρ) → Bool × Option (Import σ ρ)
  | none => (false, none)
  | some i =>
      match (dataRows cm).foldlM (importRow processRow touchFn)
          { i with somethingProcessed := false, failRows := fun _ ↦ none } with
      | none => (false, none)
      | some i => (i.somethingProcessed, some i)

def mandatory : List String := ["name", "type", "sub_type", "location", "status", "priority"]

/-- `mandatory_missing`: the first mandatory title that is not there. -/
def mandatoryMissing (cm : CsvMap) : String :=
  (mandatory.find? fun s ↦ s ∉ cm.getTitles).getD ""

/-- What `load_asset_csv` reads before the first row. -/
structure ImportSetup where
  connected : Bool
  types : List (String × Nat)
  subtypes : List (String × Nat)

inductive LoadError where
  | requestParamBad (column : String)
  | internalError
deriving DecidableEq, Repr

/-- The checks before the loop. -/
def loadChecks (db : ImportSetup) (cm : CsvMap) : Except LoadError Unit :=
  if mandatoryMissing cm ≠ "" then .error (.requestParamBad (mandatoryMissing cm))
  else if !db.connected then .error .internalError
  else if db.types.isEmpty then .error .internalError
  else if db.subtypes.isEmpty then .error .internalError
  else .ok ()

/-- `load_asset_csv`, called with empty `okRows` and `failRows`, returns with `i`. -/
def LoadAssetCsv (db : ImportSetup) (cm : CsvMap) (w : σ) (i : Import σ ρ) : Prop :=
  loadChecks db cm = .ok () ∧ Exits (importPass processRow touchFn cm) (some { world := w }) (some i)

end

/-! ## Rows and passes -/

section

variable {σ ρ : Type} {processRow : σ → Nat → σ × Except RowError (ρ × String)}
  {touchFn : σ → σ × Except RowError Unit} {cm : CsvMap} {i i' : Import σ ρ} {row : Nat}

theorem mem_dataRows : row ∈ dataRows cm ↔ 1 ≤ row ∧ row < cm.rows := by
  unfold dataRows
  rw [List.mem_range'_1]
  omega

/-- A row that is not processed yet either fails, or becomes processed. -/
theorem importRow_processed (h : importRow processRow touchFn i row = some i') :
    i'.processedRows = i.processedRows ∧ i'.somethingProcessed = i.somethingProcessed ∨
      row ∉ i.processedRows ∧ i'.processedRows = row :: i.processedRows := by
  unfold importRow at h
  by_cases hp : row ∈ i.processedRows
  · rw [if_pos hp, Option.some.injEq] at h
    exact Or.inl (h ▸ ⟨rfl, rfl⟩)
  rw [if_neg hp] at h
  cases hc : processRow i.world row with
  | mk w out =>
    rw [hc] at h
    -- a row that throws invalid_argument is tried again, any other throw ends the import
    rcases out with (what | what) | ⟨ret, warning⟩
    · simp only [Option.some.injEq] at h
      exact Or.inl (h ▸ ⟨rfl, rfl⟩)
    · simp at h
    · simp only at h
      cases ht : touchFn w with
      | mk w' out' =>
        rw [ht] at h
        rcases out' with (what | what) | ⟨⟩
        · simp only [Option.some.injEq] at h
          exact Or.inl (h ▸ ⟨rfl, rfl⟩)
        · simp at h
        · simp only [Option.some.injEq] at h
          right
          refine ⟨hp, ?_⟩
          rw [← h]
          by_cases hw : warning = "" <;> simp [hw]

/-- The rows that are left for the next pass. -/
def rowsLeft (cm : CsvMap) (i : Import σ ρ) : List Nat :=
  (dataRows cm).filter fun r ↦ r ∉ i.processedRows

theorem importRow_rowsLeft (hrow : row ∈ dataRows cm)
    (h : importRow processRow touchFn i row = some i') :
    (rowsLeft cm i').length ≤ (rowsLeft cm i).length ∧
      (i'.somethingProcessed = true →
        i.somethingProcessed = true ∨ (rowsLeft cm i').length < (rowsLeft cm i).length) := by
  rcases importRow_processed h with ⟨hp, hs⟩ | ⟨hnew, hp⟩
  · unfold rowsLeft
    rw [hp, hs]
    exact ⟨le_rfl, Or.inl⟩
  · have hsub : rowsLeft cm i' = (rowsLeft cm i).filter (· ≠ row) := by
      unfold rowsLeft
      rw [hp, List.filter_filter]
      apply List.filter_congr
      intro r _
      simp [not_or]
    have hlt : (rowsLeft cm i').length < (rowsLeft cm i).length := by
      rw [hsub, List.length_filter_lt_length_iff_exists]
      exact ⟨row, List.mem_filter.mpr ⟨hrow, by simpa using hnew⟩, by simp⟩
    exact ⟨hlt.le, fun _ ↦ Or.inr hlt⟩

theorem importRows_rowsLeft {rows : List Nat} (hrows : ∀ r ∈ rows, r ∈ dataRows cm)
    (h : rows.foldlM (importRow processRow touchFn) i = some i') :
    (rowsLeft cm i').length ≤ (rowsLeft cm i).length ∧
      (i'.somethingProcessed = true →
        i.somethingProcessed = true ∨ (rowsLeft cm i').length < (rowsLeft cm i).length) := by
  induction rows generalizing i with
  | nil =>
    obtain rfl : i = i' := by simpa using h
    exact ⟨le_rfl, Or.inl⟩
  | cons r rows ih =>
    simp only [List.foldlM_cons, Option.bind_eq_bind, Option.bind_eq_some_iff] at h
    obtain ⟨j, hj, hrest⟩ := h
    obtain ⟨hle, hgo⟩ := importRow_rowsLeft (hrows r List.mem_cons_self) hj
    obtain ⟨hle', hgo'⟩ := ih (fun r hr ↦ hrows r (List.mem_cons_of_mem _ hr)) hrest
    refine ⟨hle'.trans hle, fun hs ↦ ?_⟩
    rcases hgo' hs with hs' | hlt
    · rcases hgo hs' with hs'' | hlt
      · exact Or.inl hs''
      · exact Or.inr (by omega)
    · exact Or.inr (by omega)

/-- Whatever `process_row` and `touch_fn` do, there are only so many passes. -/
theorem importPass_ends (i : Option (Import σ ρ)) :
    ∃ j, Exits (importPass processRow touchFn cm) i j := by
  refine exits_of_variant (fun _ ↦ True)
    (fun i ↦ match i with
      | none => 0
      | some i => (rowsLeft cm i).length) ?_ trivial
  intro s t _ hs
  refine ⟨trivial, ?_⟩
  cases s with
  | none => simp [importPass] at hs
  | some i =>
    simp only [importPass] at hs
    split at hs
    · simp at hs
    · rename_i j hj
      simp only [Prod.mk.injEq] at hs
      obtain ⟨hgo, rfl⟩ := hs
      obtain ⟨-, hlt⟩ := importRows_rowsLeft (fun _ h ↦ h) hj
      simpa [rowsLeft] using hlt hgo

end

/-! ## Every behaviour of `process_row`

A script says what each call does: `b r k` is the outcome of the call for row `r` after `k` calls
for that row.  Rows are not called again once they are imported, so call `k` happens in pass `k`
(both from `0`). -/

section

variable {ρ : Type}

/-- A `process_row` that keeps to a script; its world counts the calls for each row. -/
def scripted (b : Nat → Nat → Except RowError (ρ × String)) (calls : Nat → Nat) (row : Nat) :
    (Nat → Nat) × Except RowError (ρ × String) :=
  (Function.update calls row (calls row + 1), b row (calls row))

/-- A `touch_fn` that returns. -/
def touched (calls : Nat → Nat) : (Nat → Nat) × Except RowError Unit := (calls, .ok ())

variable (b : Nat → Nat → Except RowError (ρ × String)) (cm : CsvMap)

/-- The row is still to be imported when pass `p` starts. -/
def Waiting (p r : Nat) : Prop := ∀ k < p, ∃ what, b r k = .error (.invalidArgument what)

/-- Pass `p` happens: each pass before it has imported something. -/
def PassMade (p : Nat) : Prop := ∀ q < p, ∃ r ∈ dataRows cm, Waiting b q r ∧ ∃ ret, b r q = .ok ret

/-- How an import accounts for a row. -/
structure Accounted (i : Import (Nat → Nat) ρ) (r : Nat) : Prop where
  once : Xor (∃ x, (r, x) ∈ i.okRows) (∃ msg, i.failRows (r + 1) = some msg)
  single : (i.okRows.map Prod.fst).count r ≤ 1
  ok : ∀ x, (r, x) ∈ i.okRows → ∃ k, Waiting b k r ∧ b r k = .ok (x, "")
  fail : ∀ msg, i.failRows (r + 1) = some msg → ∃ k, Waiting b k r ∧
    (b r k = .error (.invalidArgument msg) ∨ ∃ x, b r k = .ok (x, msg))

/-- What is kept while each row `r` has been through `t r` passes. -/
structure Progress (t : Nat → Nat) (i : Import (Nat → Nat) ρ) : Prop where
  world : ∀ r ∈ dataRows cm, Waiting b (t r) r → i.world r = t r
  processed : ∀ r ∈ dataRows cm, r ∈ i.processedRows ↔ ¬ Waiting b (t r) r
  ok : ∀ r x, (r, x) ∈ i.okRows ↔
    r ∈ dataRows cm ∧ ∃ k < t r, Waiting b k r ∧ b r k = .ok (x, "")
  okOnce : (i.okRows.map Prod.fst).Nodup
  caught : ∀ r ∈ dataRows cm, ∀ k < t r, Waiting b k r → ∀ what, b r k ≠ .error (.other what)

/-- What pass `p` reports in `failRows` and `somethingProcessed` about the rows `done`. -/
structure PassReport (p : Nat) (done : List Nat) (i : Import (Nat → Nat) ρ) : Prop where
  fail : ∀ r msg, i.failRows (r + 1) = some msg ↔ r ∈ done ∧ Waiting b p r ∧
    (b r p = .error (.invalidArgument msg) ∨ ∃ x, b r p = .ok (x, msg) ∧ msg ≠ "")
  something : i.somethingProcessed = true ↔ ∃ r ∈ done, Waiting b p r ∧ ∃ ret, b r p = .ok ret

variable {b cm} {t : Nat → Nat} {i i' : Import (Nat → Nat) ρ} {p row : Nat}

theorem waiting_succ (r : Nat) : Waiting b (p + 1) r ↔
    Waiting b p r ∧ ∃ what, b r p = .error (.invalidArgument what) := by
  constructor
  · intro h
    exact ⟨fun k hk ↦ h k (by omega), h p (by omega)⟩
  · rintro ⟨h, hp⟩ k hk
    rcases Nat.lt_succ_iff_lt_or_eq.mp hk with hk | rfl
    · exact h k hk
    · exact hp

/-- What one row of a pass does: nothing, when it is imported already; otherwise it fails once
more, or is imported with or without a warning. -/
theorem importRow_scripted (h : importRow (scripted b) touched i row = some i') :
    (row ∈ i.processedRows ∧ i' = i) ∨
    (row ∉ i.processedRows ∧ ∃ what, b row (i.world row) = .error (.invalidArgument what) ∧
      i' = { i with
        world := Function.update i.world row (i.world row + 1)
        failRows := insertFail i.failRows (row + 1) what }) ∨
    (row ∉ i.processedRows ∧ ∃ x, b row (i.world row) = .ok (x, "") ∧
      i' = { i with
        world := Function.update i.world row (i.world row + 1)
        okRows := i.okRows ++ [(row, x)]
        somethingProcessed := true
        processedRows := row :: i.processedRows }) ∨
    (row ∉ i.processedRows ∧ ∃ x warning, b row (i.world row) = .ok (x, warning) ∧
      warning ≠ "" ∧
      i' = { i with
        world := Function.update i.world row (i.world row + 1)
        failRows := insertFail i.failRows (row + 1) warning
        somethingProcessed := true
        processedRows := row :: i.processedRows }) := by
  unfold importRow at h
  by_cases hp : row ∈ i.processedRows
  · rw [if_pos hp, Option.some.injEq] at h
    exact Or.inl ⟨hp, h.symm⟩
  rw [if_neg hp] at h
  right
  unfold scripted touched at h
  rcases hb : b row (i.world row) with (what | what) | ⟨x, warning⟩
  · simp only [hb, Option.some.injEq] at h
    exact Or.inl ⟨hp, what, rfl, h.symm⟩
  · simp [hb] at h
  · right
    -- with a warning the row counts as processed, but is listed with the failed ones
    by_cases hw : warning = ""
    · simp only [hb, hw, if_true, Option.some.injEq] at h
      exact Or.inl ⟨hp, x, by rw [hw], h.symm⟩
    · simp only [hb, if_neg hw, Option.some.injEq] at h
      exact Or.inr ⟨hp, x, warning, rfl, hw, h.symm⟩

/-- A row that is still waiting has had as many calls as passes. -/
theorem Progress.waiting (hi : Progress b cm t i) (hrow : row ∈ dataRows cm)
    (hp : row ∉ i.processedRows) : Waiting b (t row) row ∧ i.world row = t row := by
  have hw : Waiting b (t row) row := by
    by_contra hw
    exact hp ((hi.processed row hrow).mpr hw)
  exact ⟨hw, hi.world row hrow hw⟩

theorem ok_later {r k : Nat} {x : ρ} : (∃ j < k + 1, Waiting b j r ∧ b r j = .ok (x, "")) ↔
    (∃ j < k, Waiting b j r ∧ b r j = .ok (x, "")) ∨ Waiting b k r ∧ b r k = .ok (x, "") := by
  constructor
  · rintro ⟨j, hj, h⟩
    rcases Nat.lt_succ_iff_lt_or_eq.mp hj with hj | rfl
    · exact Or.inl ⟨j, hj, h⟩
    · exact Or.inr h
  · rintro (⟨j, hj, h⟩ | h)
    · exact ⟨j, by omega, h⟩
    · exact ⟨k, by omega, h⟩

/-- A row that was imported has not waited since, and one that waits has only failed. -/
theorem not_waiting_of_ok {r k : Nat} {ret : ρ × String} (h : b r k = .ok ret) :
    ¬ Waiting b (k + 1) r := by
  intro hw
  obtain ⟨what, hwhat⟩ := hw k (by omega)
  rw [h] at hwhat
  simp at hwhat

/-- One more pass for `row`: the other rows keep what is known of them. -/
theorem Progress.of_row (hi : Progress b cm t i) (hrow : row ∈ dataRows cm)
    (hworld : ∀ r, r ≠ row → i'.world r = i.world r)
    (hworld' : Waiting b (t row + 1) row → i'.world row = t row + 1)
    (hproc : ∀ r, r ≠ row → (r ∈ i'.processedRows ↔ r ∈ i.processedRows))
    (hproc' : row ∈ i'.processedRows ↔ ¬ Waiting b (t row + 1) row)
    (hok : ∀ r x, r ≠ row → ((r, x) ∈ i'.okRows ↔ (r, x) ∈ i.okRows))
    (hok' : ∀ x, (row, x) ∈ i'.okRows ↔
      (row, x) ∈ i.okRows ∨ Waiting b (t row) row ∧ b row (t row) = .ok (x, ""))
    (honce : (i'.okRows.map Prod.fst).Nodup)
    (hcaught : Waiting b (t row) row → ∀ what, b row (t row) ≠ .error (.other what)) :
    Progress b cm (Function.update t row (t row + 1)) i' := by
  have hother : ∀ r, r ≠ row → Function.update t row (t row + 1) r = t r :=
    fun r hr ↦ Function.update_of_ne hr _ _
  have hthis : Function.update t row (t row + 1) row = t row + 1 := Function.update_self ..
  refine ⟨fun r hr hw ↦ ?_, fun r hr ↦ ?_, fun r x ↦ ?_, honce, fun r hr k hk ↦ ?_⟩
  -- each time the row itself, and then the others
  · by_cases heq : r = row
    · subst heq
      rw [hthis] at hw ⊢
      exact hworld' hw
    · rw [hother r heq] at hw ⊢
      rw [hworld r heq]
      exact hi.world r hr hw
  · by_cases heq : r = row
    · subst heq
      rw [hthis]
      exact hproc'
    · rw [hother r heq, hproc r heq]
      exact hi.processed r hr
  · by_cases heq : r = row
    · subst heq
      rw [hthis, hok', hi.ok, ok_later]
      simp [hrow]
    · rw [hother r heq, hok r x heq]
      exact hi.ok r x
  · by_cases heq : r = row
    · subst heq
      rw [hthis] at hk
      rcases Nat.lt_succ_iff_lt_or_eq.mp hk with hk | rfl
      · exact hi.caught r hr k hk
      · exact hcaught
    · rw [hother r heq] at hk
      exact hi.caught r hr k hk

theorem Progress.step (hi : Progress b cm t i) (hrow : row ∈ dataRows cm)
    (h : importRow (scripted b) touched i row = some i') :
    Progress b cm (Function.update t row (t row + 1)) i' := by
  rcases importRow_scripted h with ⟨hp, rfl⟩ | ⟨hp, what, hb, rfl⟩ | ⟨hp, x, hb, rfl⟩ |
    ⟨hp, x, warning, hb, hne, rfl⟩
  · -- imported in an earlier pass
    have hnot := (hi.processed row hrow).mp hp
    have hnot' : ¬ Waiting b (t row + 1) row := fun hw ↦ hnot ((waiting_succ row).mp hw).1
    exact hi.of_row hrow (fun _ _ ↦ rfl) (fun hw ↦ absurd hw hnot') (fun _ _ ↦ Iff.rfl)
      (iff_of_true hp hnot') (fun _ _ _ ↦ Iff.rfl) (by simp [hnot]) hi.okOnce
      (fun hw ↦ absurd hw hnot)
  · -- refused again
    obtain ⟨hwait, hworld⟩ := hi.waiting hrow hp
    rw [hworld] at hb
    have hwait' : Waiting b (t row + 1) row := (waiting_succ row).mpr ⟨hwait, what, hb⟩
    exact hi.of_row hrow (fun _ hr ↦ Function.update_of_ne hr _ _) (fun _ ↦ by simp [hworld])
      (fun _ _ ↦ Iff.rfl) (iff_of_false hp (not_not.mpr hwait')) (fun _ _ _ ↦ Iff.rfl)
      (by simp [hb]) hi.okOnce (by simp [hb])
  · -- imported without a warning
    obtain ⟨hwait, hworld⟩ := hi.waiting hrow hp
    rw [hworld] at hb
    have hnot := not_waiting_of_ok hb
    refine hi.of_row hrow (fun _ hr ↦ Function.update_of_ne hr _ _) (fun hw ↦ absurd hw hnot)
      (fun r hr ↦ by simp [hr]) (iff_of_true List.mem_cons_self hnot)
      (fun r y hr ↦ by simp [hr]) (fun y ↦ ?_) ?_ (by simp [hb])
    · rw [hb]
      simp [hwait, eq_comm]
    · -- a row that was imported before is not waiting
      simp only [List.map_append, List.map_cons, List.map_nil]
      refine List.nodup_append.mpr ⟨hi.okOnce, by simp, ?_⟩
      intro r hr r' hr'
      obtain rfl := List.mem_singleton.mp hr'
      rintro rfl
      obtain ⟨⟨r, y⟩, hmem, rfl⟩ := List.mem_map.mp hr
      obtain ⟨-, k, hk, -, hok⟩ := (hi.ok _ _).mp hmem
      obtain ⟨what, hwhat⟩ := hwait k hk
      rw [hok] at hwhat
      simp at hwhat
  · -- imported with a warning
    obtain ⟨hwait, hworld⟩ := hi.waiting hrow hp
    rw [hworld] at hb
    have hnot := not_waiting_of_ok hb
    exact hi.of_row hrow (fun _ hr ↦ Function.update_of_ne hr _ _) (fun hw ↦ absurd hw hnot)
      (fun r hr ↦ by simp [hr]) (iff_of_true List.mem_cons_self hnot) (fun _ _ _ ↦ Iff.rfl)
      (by simp [hb, hne]) hi.okOnce (by simp [hb])

theorem insertFail_of_none {failRows : Nat → Option String} {key : Nat} {msg : String}
    (h : failRows key = none) :
    insertFail failRows key msg = Function.update failRows key (some msg) := by
  simp [insertFail, h]

/-- A row of pass `p` adds its own report, and no other. -/
theorem PassReport.step {done : List Nat} (hi : Progress b cm t i) (hr : PassReport b p done i)
    (hrow : row ∈ dataRows cm) (hnew : row ∉ done) (ht : t row = p)
    (h : importRow (scripted b) touched i row = some i') :
    PassReport b p (row :: done) i' := by
  have hnone : i.failRows (row + 1) = none := by
    by_contra hsome
    obtain ⟨msg, hmsg⟩ := Option.ne_none_iff_exists'.mp hsome
    exact hnew ((hr.fail row msg).mp hmsg).1
  -- the report on `row` decides, those on the other rows stay
  have hreport : (∀ r, r ≠ row → i'.failRows (r + 1) = i.failRows (r + 1)) →
      (∀ msg, i'.failRows (row + 1) = some msg ↔ Waiting b p row ∧
        (b row p = .error (.invalidArgument msg) ∨ ∃ x, b row p = .ok (x, msg) ∧ msg ≠ "")) →
      (i'.somethingProcessed = true ↔
        i.somethingProcessed = true ∨ Waiting b p row ∧ ∃ ret, b row p = .ok ret) →
      PassReport b p (row :: done) i' := by
    intro hother hthis hsome
    refine ⟨fun r msg ↦ ?_, ?_⟩
    · by_cases heq : r = row
      · subst heq
        rw [hthis]
        simp
      · rw [hother r heq, hr.fail]
        simp [heq]
    · rw [hsome, hr.something]
      simp only [List.mem_cons, exists_eq_or_imp]
      exact or_comm
  rcases importRow_scripted h with ⟨hp, rfl⟩ | ⟨hp, what, hb, rfl⟩ | ⟨hp, x, hb, rfl⟩ |
    ⟨hp, x, warning, hb, hne, rfl⟩
  · have hnot := (hi.processed row hrow).mp hp
    rw [ht] at hnot
    exact hreport (fun _ _ ↦ rfl) (by simp [hnone, hnot]) (by simp [hnot])
  · obtain ⟨hwait, hworld⟩ := hi.waiting hrow hp
    rw [hworld, ht] at hb
    rw [ht] at hwait
    refine hreport (fun r hne ↦ ?_) (fun msg ↦ ?_) (by simp [hb])
    · simp only [insertFail_of_none hnone]
      exact Function.update_of_ne (by omega) _ _
    · simp only [insertFail_of_none hnone, Function.update_self, hb]
      simp [hwait]
  · obtain ⟨hwait, hworld⟩ := hi.waiting hrow hp
    rw [hworld, ht] at hb
    rw [ht] at hwait
    refine hreport (fun _ _ ↦ rfl) (fun msg ↦ ?_) (by simp [hwait, hb])
    rw [hnone, hb]
    simp only [reduceCtorEq, Except.ok.injEq, Prod.mk.injEq, false_or, false_iff, not_and,
      not_exists]
    rintro - y ⟨-, rfl⟩
    simp
  · obtain ⟨hwait, hworld⟩ := hi.waiting hrow hp
    rw [hworld, ht] at hb
    rw [ht] at hwait
    refine hreport (fun r hne ↦ ?_) (fun msg ↦ ?_) (by simp [hwait, hb])
    · simp only [insertFail_of_none hnone]
      exact Function.update_of_ne (by omega) _ _
    · simp only [insertFail_of_none hnone, Function.update_self, hb, Option.some.injEq, hwait,
        reduceCtorEq, Except.ok.injEq, Prod.mk.injEq, false_or, true_and]
      constructor
      · rintro rfl
        exact ⟨x, ⟨rfl, rfl⟩, hne⟩
      · rintro ⟨y, ⟨-, rfl⟩, -⟩
        rfl

theorem Progress.congr {t' : Nat → Nat} (hi : Progress b cm t i)
    (h : ∀ r ∈ dataRows cm, t' r = t r) : Progress b cm t' i := by
  refine ⟨fun r hr ↦ ?_, fun r hr ↦ ?_, fun r x ↦ ?_, hi.okOnce, fun r hr ↦ ?_⟩
  · rw [h r hr]
    exact hi.world r hr
  · rw [h r hr]
    exact hi.processed r hr
  · rw [hi.ok]
    refine and_congr_right fun hr ↦ ?_
    rw [h r hr]
  · rw [h r hr]
    exact hi.caught r hr

/-- The rest of pass `p`. -/
theorem rows_spec {rows done : List Nat} (hi : Progress b cm t i) (hr : PassReport b p done i)
    (hrows : ∀ r ∈ rows, r ∈ dataRows cm ∧ r ∉ done ∧ t r = p) (hnd : rows.Nodup)
    (h : rows.foldlM (importRow (scripted b) touched) i = some i') :
    Progress b cm (fun r ↦ if r ∈ rows then p + 1 else t r) i' ∧
      PassReport b p (rows.reverse ++ done) i' := by
  induction rows generalizing i t done with
  | nil =>
    obtain rfl : i = i' := by simpa using h
    exact ⟨by simpa using hi, hr⟩
  | cons row rows ih =>
    simp only [List.foldlM_cons, Option.bind_eq_bind, Option.bind_eq_some_iff] at h
    obtain ⟨j, hj, hrest⟩ := h
    obtain ⟨hnew, hnd⟩ := List.nodup_cons.mp hnd
    obtain ⟨hrow, hdone, ht⟩ := hrows row List.mem_cons_self
    obtain ⟨hprog, hrep⟩ := ih (hi.step hrow hj) (hr.step hi hrow hdone ht hj)
      (fun r hmem ↦ by
        obtain ⟨hdata, hout, htr⟩ := hrows r (List.mem_cons_of_mem _ hmem)
        have hne : r ≠ row := fun heq ↦ hnew (heq ▸ hmem)
        exact ⟨hdata, by simp [hne, hout], by rw [Function.update_of_ne hne, htr]⟩)
      hnd hrest
    refine ⟨hprog.congr fun r _ ↦ ?_, by simpa using hrep⟩
    -- the first row has had its try, and is not among the others
    by_cases heq : r = row
    · subst heq
      simp [hnew, ht]
    · simp [heq]

/-- A whole pass. -/
theorem importPass_spec {go : Bool} (hi : Progress b cm (fun _ ↦ p) i)
    (h : importPass (scripted b) touched cm (some i) = (go, some i')) :
    Progress b cm (fun _ ↦ p + 1) i' ∧ PassReport b p (dataRows cm) i' ∧
      (go = true ↔ ∃ r ∈ dataRows cm, Waiting b p r ∧ ∃ ret, b r p = .ok ret) := by
  simp only [importPass] at h
  split at h
  · simp at h
  · rename_i j hj
    simp only [Prod.mk.injEq, Option.some.injEq] at h
    obtain ⟨hgo, rfl⟩ := h
    have hstart : PassReport b p []
        { i with somethingProcessed := false, failRows := fun _ ↦ none } :=
      ⟨by simp, by simp⟩
    obtain ⟨hprog, hrep⟩ := rows_spec (i := { i with
      somethingProcessed := false
      failRows := fun _ ↦ none }) ⟨hi.world, hi.processed, hi.ok, hi.okOnce, hi.caught⟩ hstart
      (fun r hr ↦ ⟨hr, by simp, rfl⟩) List.nodup_range' hj
    have hrep' : PassReport b p (dataRows cm) j :=
      ⟨fun r msg ↦ by simp [hrep.fail], by simp [hrep.something]⟩
    refine ⟨hprog.congr fun r hr ↦ by simp [hr], hrep', ?_⟩
    rw [← hgo, hrep'.something]

/-- The passes from pass `p` on: the last one imports nothing. -/
theorem passes_spec {s u : Option (Import (Nat → Nat) ρ)}
    (h : Exits (importPass (scripted b) touched cm) s u) (hs : s = some i) (hu : u = some i')
    (hi : Progress b cm (fun _ ↦ p) i) (hmade : PassMade b cm p) :
    ∃ q, PassMade b cm q ∧ ¬ (∃ r ∈ dataRows cm, Waiting b q r ∧ ∃ ret, b r q = .ok ret) ∧
      Progress b cm (fun _ ↦ q + 1) i' ∧ PassReport b q (dataRows cm) i' := by
  refine Exits.rounds (motive := fun s u ↦ ∀ i i' p, s = some i → u = some i' →
    Progress b cm (fun _ ↦ p) i → PassMade b cm p → ∃ q, PassMade b cm q ∧
      ¬ (∃ r ∈ dataRows cm, Waiting b q r ∧ ∃ ret, b r q = .ok ret) ∧
      Progress b cm (fun _ ↦ q + 1) i' ∧ PassReport b q (dataRows cm) i') ?_ ?_ h i i' p hs hu hi
      hmade
  · rintro s u hbody i i' p rfl rfl hi hmade
    obtain ⟨hprog, hrep, hgo⟩ := importPass_spec hi hbody
    exact ⟨p, hmade, fun hsome ↦ by simpa using hgo.mpr hsome, hprog, hrep⟩
  · rintro s s' u hbody hrest ih i i' p rfl rfl hi hmade
    cases s' with
    | none =>
      -- an exception ends the loop
      have hstop : Exits (importPass (scripted b) touched cm) none (some i') := hrest
      rw [exits_of_stop (show importPass (scripted b) touched cm none = (false, none) from rfl)]
        at hstop
      simp at hstop
    | some j =>
      obtain ⟨hprog, -, hgo⟩ := importPass_spec hi hbody
      refine ih j i' (p + 1) rfl rfl hprog ?_
      intro q hq
      rcases Nat.lt_succ_iff_lt_or_eq.mp hq with hq | rfl
      · exact hmade q hq
      · exact hgo.mp rfl

/-- The call that imported a row, if any, is the only one that did not fail. -/
theorem imported_unique {r j k : Nat} {ret ret' : ρ × String} (hj : Waiting b j r)
    (hret : b r j = .ok ret) (hk : Waiting b k r) (hret' : b r k = .ok ret') : j = k := by
  by_contra hne
  rcases Nat.lt_or_gt_of_ne hne with hlt | hgt
  · obtain ⟨what, h⟩ := hk j hlt
    rw [hret] at h
    simp at h
  · obtain ⟨what, h⟩ := hj k hgt
    rw [hret'] at h
    simp at h

theorem first_not_waiting {q r : Nat} (h : ¬ Waiting b q r) :
    ∃ k < q, Waiting b k r ∧ ∀ what, b r k ≠ .error (.invalidArgument what) := by
  induction q with
  | zero => exact absurd (fun k hk ↦ absurd hk (Nat.not_lt_zero k)) h
  | succ q ih =>
    by_cases hw : Waiting b q r
    · refine ⟨q, by omega, hw, fun what hwhat ↦ h ((waiting_succ r).mpr ⟨hw, what, hwhat⟩)⟩
    · obtain ⟨k, hk, hrest⟩ := ih hw
      exact ⟨k, by omega, hrest⟩

theorem accounted_iff {db : ImportSetup}
    (h : LoadAssetCsv (scripted b) touched db cm (fun _ ↦ 0) i) :
    (∀ r, 1 ≤ r → r < cm.rows → Accounted b i r) ↔
      ∀ p, PassMade b cm p → ∀ r ∈ dataRows cm, Waiting b p r →
        ∀ x warning, b r p = .ok (x, warning) → warning = "" := by
  have hstart : Progress b cm (fun _ ↦ 0) { world := fun _ ↦ 0 } :=
    ⟨fun _ _ _ ↦ rfl, by simp [Waiting], by simp, by simp, by simp⟩
  obtain ⟨q, hmade, hnone, hprog, hrep⟩ := passes_spec h.2 rfl rfl hstart (by simp [PassMade])
  constructor
  · intro hall p hp r hr hwait x warning hok
    -- the pass was made by the loop, since the one after the last imports nothing
    have hpq : p < q := by
      by_contra hge
      rcases Nat.lt_or_eq_of_le (not_lt.mp hge) with hlt | rfl
      · exact hnone (hp q hlt)
      · exact hnone ⟨r, hr, hwait, _, hok⟩
    have hgone : ¬ Waiting b q r := by
      intro hw
      obtain ⟨what, hwhat⟩ := hw p hpq
      rw [hok] at hwhat
      simp at hwhat
    have hacc := hall r (mem_dataRows.mp hr).1 (mem_dataRows.mp hr).2
    rcases hacc.once with ⟨⟨y, hy⟩, -⟩ | ⟨⟨msg, hmsg⟩, -⟩
    · obtain ⟨-, k, -, hk, hkok⟩ := (hprog.ok r y).mp hy
      obtain rfl := imported_unique hwait hok hk hkok
      rw [hok] at hkok
      simp only [Except.ok.injEq, Prod.mk.injEq] at hkok
      exact hkok.2
    · exact absurd ((hrep.fail r msg).mp hmsg).2.1 hgone
  · intro hclean r hlo hhi
    have hr : r ∈ dataRows cm := mem_dataRows.mpr ⟨hlo, hhi⟩
    have hsingle := List.nodup_iff_count_le_one.mp hprog.okOnce r
    have hok : ∀ x, (r, x) ∈ i.okRows → ∃ k, Waiting b k r ∧ b r k = .ok (x, "") := by
      intro x hx
      obtain ⟨-, k, -, hk⟩ := (hprog.ok r x).mp hx
      exact ⟨k, hk⟩
    have hfail : ∀ msg, i.failRows (r + 1) = some msg → ∃ k, Waiting b k r ∧
        (b r k = .error (.invalidArgument msg) ∨ ∃ x, b r k = .ok (x, msg)) := by
      intro msg hmsg
      obtain ⟨-, hw, hcall⟩ := (hrep.fail r msg).mp hmsg
      refine ⟨q, hw, hcall.imp_right ?_⟩
      rintro ⟨x, hx, -⟩
      exact ⟨x, hx⟩
    by_cases hw : Waiting b q r
    · -- refused in every pass, the last one included
      refine ⟨Or.inr ⟨?_, ?_⟩, hsingle, hok, hfail⟩
      · rcases hb : b r q with (what | what) | ret
        · exact ⟨what, (hrep.fail r what).mpr ⟨hr, hw, Or.inl hb⟩⟩
        · exact absurd hb (hprog.caught r hr q (by simp) hw what)
        · exact absurd ⟨r, hr, hw, ret, hb⟩ hnone
      · rintro ⟨x, hx⟩
        obtain ⟨-, k, hk, hkw, hkok⟩ := (hprog.ok r x).mp hx
        rcases Nat.lt_succ_iff_lt_or_eq.mp hk with hk | rfl
        · obtain ⟨what, hwhat⟩ := hw k hk
          rw [hkok] at hwhat
          simp at hwhat
        · exact hnone ⟨r, hr, hw, _, hkok⟩
    · -- imported by some pass before
      obtain ⟨k, hk, hkw, hkne⟩ := first_not_waiting hw
      refine ⟨Or.inl ⟨?_, ?_⟩, hsingle, hok, hfail⟩
      · rcases hb : b r k with (what | what) | ⟨x, warning⟩
        · exact absurd hb (hkne what)
        · exact absurd hb (hprog.caught r hr k (by omega) hkw what)
        · have hmade' : PassMade b cm k := fun p hp ↦ hmade p (by omega)
          have hempty := hclean k hmade' r hr hkw x warning hb
          refine ⟨x, (hprog.ok r x).mpr ⟨hr, k, by omega, hkw, ?_⟩⟩
          rw [hb, hempty]
      · rintro ⟨msg, hmsg⟩
        exact hw ((hrep.fail r msg).mp hmsg).2.1

/-- The passes end.  Every row is accounted for exactly when no row is imported with a warning: its
report is cleared by the pass that follows, and the row is not looked at again. -/
theorem every_row_accounted_iff :
    (∃ j, Exits (importPass (scripted b) touched cm) (some { world := fun _ ↦ 0 }) j) ∧
    ∀ db i, LoadAssetCsv (scripted b) touched db cm (fun _ ↦ 0) i →
      ((∀ r, 1 ≤ r → r < cm.rows → Accounted b i r) ↔
        ∀ p, PassMade b cm p → ∀ r ∈ dataRows cm, Waiting b p r →
          ∀ x warning, b r p = .ok (x, warning) → warning = "") :=
  ⟨importPass_ends _, fun _ _ h ↦ accounted_iff h⟩

end

/-- A table with one data row. -/
def oneRow : CsvMap where
  data := [mandatory, ["rack", "rack", "", "", "active", "P1"]]
  titleToIndex := mandatory.zipIdx

def oneRowSetup : ImportSetup := ⟨true, [("rack", 5)], [("ups", 1)]⟩

/-- A rack in front of the room that it stands in. -/
def twoRows : CsvMap where
  data := [mandatory, ["rack", "rack", "", "room", "active", "P1"],
    ["room", "room", "", "", "active", "P1"]]
  titleToIndex := mandatory.zipIdx

/-- The rack is refused as long as the room is not there. -/
def roomLater (row pass : Nat) : Except RowError (Unit × String) :=
  if row = 1 ∧ pass = 0 then .error (.invalidArgument "room") else .ok ((), "")

theorem every_row_accounted_iff_two_rows :
    ∃ i, LoadAssetCsv (scripted roomLater) touched oneRowSetup twoRows (fun _ ↦ 0) i ∧
      ∀ r, 1 ≤ r → r < twoRows.rows → Accounted roomLater i r := by
  have hload : ∃ i, LoadAssetCsv (scripted roomLater) touched oneRowSetup twoRows (fun _ ↦ 0) i :=
    ⟨_, by decide, 4, rfl⟩
  obtain ⟨i, h⟩ := hload
  refine ⟨i, h, (every_row_accounted_iff.2 _ i h).mpr ?_⟩
  intro p _ r _ _ x warning hok
  unfold roomLater at hok
  split at hok
  · cases hok
  · exact (Prod.mk.inj (Except.ok.inj hok)).2.symm

/-- The row is imported, with a warning that its activation failed, by the first pass; the second
one clears the warning. -/
theorem warned_row_is_lost :
    ∃ i : Import (Nat → Nat) Unit,
      LoadAssetCsv (scripted fun _ _ ↦ .ok ((), "activation failed")) touched oneRowSetup oneRow
        (fun _ ↦ 0) i ∧
      1 < oneRow.rows ∧ ¬ Accounted (fun _ _ ↦ .ok ((), "activation failed")) i 1 := by
  refine ⟨_, ⟨by decide, 3, rfl⟩, by decide, fun h ↦ ?_⟩
  rcases h.once with ⟨⟨x, hx⟩, -⟩ | ⟨⟨msg, hmsg⟩, -⟩
  · simp at hx
  · simp at hmsg

end FtyRest.Db
